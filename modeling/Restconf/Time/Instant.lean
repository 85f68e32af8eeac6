import Restconf.Text.Blank
import Restconf.Time.Calendar

/-!
# Instants

Points of time in UTC with nanoseconds, read from and written as RFC 3339 timestamps.

Reading is relaxed: white space may stand in front of every number and around the separators, the
date and the time may be divided by a space, years outside of four digits carry a sign, and the
offset may be spelled `UTC`. A sixtieth second is kept as it is.

## Main definitions

* `Instant` — the fields of a timestamp in UTC.
* `Instant.parse?`, `Instant.text`.
-/

namespace Restconf

/-- A point of time in UTC. -/
structure Instant where
  date : CalendarDate
  hour : Nat
  minute : Nat
  /-- Up to sixty: a leap second keeps its own number. -/
  second : Nat
  nanosecond : Nat := 0
deriving DecidableEq, Repr

namespace Instant

/-! ### Reading -/

/-- Readers of the pieces of a timestamp. -/
abbrev Reader (α : Type) := List Char → Option (α × List Char)

/-- A decimal digit. -/
def isDigit (c : Char) : Bool := '0' ≤ c && c ≤ '9'

/-- The number that digits spell. -/
def spell (digits : List Char) : Nat :=
  digits.foldl (fun n c => 10 * n + (c.toNat - '0'.toNat)) 0

/-- At least one digit and no more than `width`. -/
def number (width : Nat) : Reader Nat := fun text =>
  match (text.takeWhile isDigit).take width with
  | [] => none
  | digits => some (spell digits, text.drop digits.length)

/-- A number of at most two digits behind white space, within bounds. -/
def field (low high : Nat) : Reader Nat := fun text => do
  let (n, rest) ← number 2 (Blank.trimStart text)
  if low ≤ n ∧ n ≤ high then return (n, rest) else none

/-- A year: four digits at most, or any number of them behind a sign. -/
def yearField : Reader Int := fun text =>
  match Blank.trimStart text with
  | '-' :: rest => (number rest.length rest).map fun (n, rest) => (-Int.ofNat n, rest)
  | '+' :: rest => (number rest.length rest).map fun (n, rest) => (Int.ofNat n, rest)
  | text => (number 4 text).map fun (n, rest) => (Int.ofNat n, rest)

/-- A separator behind white space. -/
def separator (c : Char) : Reader Unit := fun text =>
  match Blank.trimStart text with
  | first :: rest => if first = c then some ((), rest) else none
  | [] => none

/-- The fraction of a second in nanoseconds. Digits beyond the ninth do not count. -/
def fraction : Reader Nat := fun text =>
  match text with
  | '.' :: rest =>
    let digits := rest.takeWhile isDigit
    if digits.isEmpty then none
    else
      let kept := digits.take 9
      some (spell kept * Nat.pow 10 (9 - kept.length), rest.drop digits.length)
  | _ => some (0, text)

/-- Two digits. -/
def twoDigits : Reader Nat
  | a :: b :: rest => if isDigit a && isDigit b then some (spell [a, b], rest) else none
  | _ => none

/-- The sign of an offset. -/
def offsetSign : Reader Bool
  | '+' :: rest => some (false, rest)
  | '-' :: rest => some (true, rest)
  | '\u2212' :: rest => some (true, rest)
  | _ => none

/-- The hours and minutes of an offset, in seconds to the east. -/
def numericOffset : Reader Int := fun text => do
  let (negative, rest) ← offsetSign text
  let (hours, rest) ← twoDigits rest
  let (minutes, rest) ← twoDigits (rest.dropWhile fun c => c = ':' || Blank.isBlank c)
  if 59 < minutes then none
  let seconds : Int := hours * 3600 + minutes * 60
  return (if negative then -seconds else seconds, rest)

/-- The offset from UTC: its name, the letter for it, or hours and minutes. -/
def offset : Reader Int := fun text =>
  let text := Blank.trimStart text
  if (text.take 3).map Char.toUpper = ['U', 'T', 'C'] then some (0, text.drop 3)
  else
    match text with
    | 'Z' :: rest | 'z' :: rest => some (0, rest)
    | _ => numericOffset text

/-- The sign between date and time. -/
def dateTimeSeparator : Reader Unit
  | 'T' :: rest | 't' :: rest | ' ' :: rest => some ((), rest)
  | _ => none

/-- The years that can be told apart. -/
def isInRange (date : CalendarDate) : Bool := -262143 ≤ date.year && date.year ≤ 262142

/-- An instant from its local fields and the offset of the place. -/
def ofLocal? (here : Instant) (offset : Int) : Option Instant := do
  if !(here.date.isValid && isInRange here.date && offset.natAbs < 86400) then none
  let seconds : Int := here.hour * 3600 + here.minute * 60 + min here.second 59 - offset
  let date := CalendarDate.ofDays (here.date.toDays + seconds.fdiv 86400)
  if !isInRange date then none
  let ofDay := (seconds.fmod 86400).toNat
  let second := ofDay % 60 + (here.second - min here.second 59)
  return {
    date, hour := ofDay / 3600, minute := ofDay / 60 % 60, second
    nanosecond := here.nanosecond }

/-- Reads a timestamp. -/
def parse? (text : String) : Option Instant := do
  let (year, rest) ← yearField text.toList
  let (_, rest) ← separator '-' rest
  let (month, rest) ← field 1 12 rest
  let (_, rest) ← separator '-' rest
  let (day, rest) ← field 1 31 rest
  let (_, rest) ← dateTimeSeparator rest
  let (hour, rest) ← field 0 23 rest
  let (_, rest) ← separator ':' rest
  let (minute, rest) ← field 0 59 rest
  let (_, rest) ← separator ':' rest
  let (second, rest) ← field 0 60 rest
  let (nanosecond, rest) ← fraction rest
  let (offset, rest) ← offset rest
  if !(Blank.trimStart rest).isEmpty then none
  ofLocal? { date := { year, month, day }, hour, minute, second, nanosecond } offset

/-! ### Writing -/

/-- A number with zeros in front of it up to a width. -/
def padded (width n : Nat) : List Char :=
  let digits := Nat.toDigits 10 n
  List.replicate (width - digits.length) '0' ++ digits

/-- A year of four digits; with a sign where four digits without one do not do. -/
def yearText (year : Int) : List Char :=
  if 0 ≤ year ∧ year ≤ 9999 then padded 4 year.natAbs
  else (if year < 0 then '-' else '+') :: padded 4 year.natAbs

/-- The fraction of a second in groups of three digits, left out where it is zero. -/
def fractionText (nanosecond : Nat) : List Char :=
  if nanosecond = 0 then []
  else if nanosecond % 1000000 = 0 then '.' :: padded 3 (nanosecond / 1000000)
  else if nanosecond % 1000 = 0 then '.' :: padded 6 (nanosecond / 1000)
  else '.' :: padded 9 nanosecond

/-- The timestamp of an instant. -/
def text (t : Instant) : String :=
  .ofList <|
    yearText t.date.year ++ '-' :: padded 2 t.date.month ++ '-' :: padded 2 t.date.day
      ++ 'T' :: padded 2 t.hour ++ ':' :: padded 2 t.minute ++ ':' :: padded 2 t.second
      ++ fractionText t.nanosecond ++ ['Z']

end Instant

end Restconf
