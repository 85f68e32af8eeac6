import Restconf.Number.Numeral
import Restconf.Text.Hex
import Restconf.Time.Calendar
import Restconf.Toml.Basic
import Restconf.Toml.Quoted

/-!
# Words, numbers and dates in TOML

## Main definitions

* `Toml.integer?` — an integer of 64 bits, decimal or with the prefixes `0x`, `0o` and `0b`.
* `Toml.isFloat` — a number with a fraction or an exponent, or one of the words `inf` and `nan`.
* `Toml.date?`, `Toml.isTime`, `Toml.isZonedTime` — the parts of a point of time.
* `Toml.readScalar` — any of them at the head of a text.

## Implementation notes

None of these can be followed by a character that occurs in one. So the longest run of such
characters is taken and has to be one of them as a whole. A date and a time may have a space between
them, and that is the only case of two runs.
-/

namespace Restconf.Toml

/-- Characters of words, numbers and dates. -/
def isLexical (c : Char) : Bool :=
  c.isAlphanum || c == '+' || c == '-' || c == '_' || c == '.' || c == ':'

/-! ### Digits -/

/-- The value of a digit in a base up to sixteen. -/
def digitBelow (base : Nat) (c : Char) : Option Nat := (Hex.value? c).filter (· < base)

/-- Digits, with single underscores between them. -/
def grouped? (base : Nat) : List Char → Option (List Nat)
  | [] => none
  | [c] => (digitBelow base c).map ([·])
  | c :: '_' :: rest => do return (← digitBelow base c) :: (← grouped? base rest)
  | c :: rest => do return (← digitBelow base c) :: (← grouped? base rest)

/-- A part of a decimal number. -/
def isGrouped (c : Char) : Bool := c.isDigit || c == '_'

/-- The number that digits spell in a base. -/
def spell (base : Nat) (digits : List Nat) : Nat := digits.foldl (fun n d => base * n + d) 0

/-- A sign, and whether it is negative. -/
def splitSign : List Char → Bool × List Char
  | '-' :: rest => (true, rest)
  | '+' :: rest => (false, rest)
  | text => (false, text)

/-- Decimal digits that do not begin with zero, or zero alone. -/
def whole? (text : List Char) : Option (List Nat) := do
  let digits ← grouped? 10 text
  if digits.head? = some 0 ∧ digits ≠ [0] then none else return digits

/-! ### Integers -/

/-- An integer, however large. -/
def unboundedInteger? : List Char → Option Int
  | '0' :: 'x' :: digits => (grouped? 16 digits).map fun ds => spell 16 ds
  | '0' :: 'o' :: digits => (grouped? 8 digits).map fun ds => spell 8 ds
  | '0' :: 'b' :: digits => (grouped? 2 digits).map fun ds => spell 2 ds
  | text => do
    let (negative, text) := splitSign text
    let magnitude : Int := spell 10 (← whole? text)
    return if negative then -magnitude else magnitude

/-- An integer of 64 bits. -/
def integer? (text : List Char) : Option Int :=
  let bound : Int := Nat.pow 2 63
  (unboundedInteger? text).filter fun n => -bound ≤ n && n < bound

/-! ### Numbers with a fraction -/

/-- A fraction, if there is one, and what follows it. -/
def fraction? : Reader (List Nat)
  | '.' :: text =>
    let (digits, rest) := text.span isGrouped
    (grouped? 10 digits).map (·, rest)
  | text => some ([], text)

/-- An exponent, if there is one. -/
def exponent? : List Char → Option (Option (Bool × List Nat))
  | [] => some none
  | 'e' :: text | 'E' :: text =>
    let (negative, digits) := splitSign text
    (grouped? 10 digits).map fun ds => some (negative, ds)
  | _ => none

/-- A decimal number with a fraction or an exponent. -/
def decimal? (text : List Char) : Option Numeral := do
  let (negative, text) := splitSign text
  let (digits, text) := text.span isGrouped
  let whole ← whole? digits
  let (fraction, text) ← fraction? text
  let numeral : Numeral := { negative, whole, fraction, exponent := ← exponent? text }
  if numeral.isInteger then none else return numeral

/-- A number with a fraction. A positive one has to be in the range of binary64 when it is
rounded. -/
def isFloat (text : List Char) : Bool :=
  match decimal? text with
  | some numeral => numeral.negative || numeral.nearest?.isSome
  | none => (splitSign text).2 ∈ ["inf".toList, "nan".toList]

/-! ### Dates and times -/

/-- A number of so many digits. -/
def fixed? (width : Nat) : Reader Nat := fun text =>
  let digits := text.take width
  if digits.length = width then
    (digits.mapM (digitBelow 10)).map fun ds => (spell 10 ds, text.drop width)
  else none

/-- What follows a character. -/
def after? (c : Char) : List Char → Option (List Char)
  | first :: rest => if first = c then some rest else none
  | [] => none

/-- A day of the calendar, and what follows it. -/
def date? : Reader CalendarDate := fun text => do
  let (year, text) ← fixed? 4 text
  let (month, text) ← fixed? 2 (← after? '-' text)
  let (day, text) ← fixed? 2 (← after? '-' text)
  let date : CalendarDate := { year, month, day }
  if date.isValid then return (date, text) else none

/-- What follows an hour and a minute. -/
def afterMinute? (text : List Char) : Option (List Char) := do
  let (hour, text) ← fixed? 2 text
  let (minute, text) ← fixed? 2 (← after? ':' text)
  if hour ≤ 23 ∧ minute ≤ 59 then return text else none

/-- What follows a time of the day. -/
def afterTime? (text : List Char) : Option (List Char) := do
  let text ← afterMinute? text
  let (second, text) ← fixed? 2 (← after? ':' text)
  if 60 < second then none
  match text with
  | '.' :: text =>
    let (digits, rest) := text.span Char.isDigit
    if digits.isEmpty then none else return rest
  | text => return text

/-- A time of the day. -/
def isTime (text : List Char) : Bool := afterTime? text == some []

/-- An offset from UTC. -/
def isOffset : List Char → Bool
  | ['Z'] | ['z'] => true
  | '+' :: text | '-' :: text => afterMinute? text == some []
  | _ => false

/-- A time of the day, with or without an offset. -/
def isZonedTime (text : List Char) : Bool :=
  match afterTime? text with
  | some [] => true
  | some offset => isOffset offset
  | none => false

/-! ### Values -/

/-- The time behind a date and a space, if there is one. -/
def readSpacedTime (date : List Char) : Reader Toml
  | ' ' :: c :: text =>
    if c.isDigit then
      let (time, rest) := (c :: text).span isLexical
      if isZonedTime time then some (dateTime (.ofList (date ++ ' ' :: time)), rest) else none
    else some (dateTime (.ofList date), ' ' :: c :: text)
  | rest => some (dateTime (.ofList date), rest)

/-- Reads a point of time whose first run of characters is given. -/
def readDateTime (run rest : List Char) : Option (Toml × List Char) :=
  match date? run with
  | none => if isTime run then some (dateTime (.ofList run), rest) else none
  | some (_, []) => readSpacedTime run rest
  | some (_, mark :: time) =>
    if (mark == 'T' || mark == 't') && isZonedTime time then some (dateTime (.ofList run), rest)
    else none

/-- Reads a word, a number or a date. -/
def readScalar : Reader Toml := fun text =>
  let (run, rest) := text.span isLexical
  if run = "true".toList then some (boolean true, rest)
  else if run = "false".toList then some (boolean false, rest)
  else
    match integer? run with
    | some value => some (integer value, rest)
    | none => if isFloat run then some (float (.ofList run), rest) else readDateTime run rest

end Restconf.Toml
