/-!
# The Gregorian calendar

Days counted from the first of January 1970, for all years before and after.

## Main definitions

* `CalendarDate` — year, month and day; `CalendarDate.isValid` says when they name a day.
* `CalendarDate.toDays`, `CalendarDate.ofDays` — the count of a day, and the day of a count.

## Implementation notes

Years are counted from March, so that the leap day is the last day of its year; four hundred years
then form an era of 146097 days, in which the day of the year grows without a jump.
-/

namespace Restconf

/-- A day of the calendar. -/
structure CalendarDate where
  year : Int
  month : Nat
  day : Nat
deriving DecidableEq, Repr

namespace CalendarDate

/-- A year with a leap day. -/
def isLeapYear (year : Int) : Bool :=
  year % 4 == 0 && (year % 100 != 0 || year % 400 == 0)

/-- How many days a month has. -/
def daysInMonth (year : Int) (month : Nat) : Nat :=
  match month with
  | 2 => if isLeapYear year then 29 else 28
  | 4 | 6 | 9 | 11 => 30
  | _ => 31

/-- Year, month and day name a day of the calendar. -/
def isValid (date : CalendarDate) : Bool :=
  1 ≤ date.month && date.month ≤ 12 && 1 ≤ date.day
    && date.day ≤ daysInMonth date.year date.month

/-- The days of an era of four hundred years. -/
def daysPerEra : Int := 146097

/-- The days from the start of the first era to the first of January 1970. -/
def epochOffset : Int := 719468

/-- The number of a day, counted from the first of January 1970. -/
def toDays (date : CalendarDate) : Int :=
  let year := if date.month ≤ 2 then date.year - 1 else date.year
  let era := year.fdiv 400
  let yearOfEra := year - era * 400
  let monthFromMarch : Int := (date.month + 9) % 12
  let dayOfYear := (153 * monthFromMarch + 2) / 5 + date.day - 1
  let dayOfEra := yearOfEra * 365 + yearOfEra / 4 - yearOfEra / 100 + dayOfYear
  era * daysPerEra + dayOfEra - epochOffset

/-- The day of a number. -/
def ofDays (days : Int) : CalendarDate :=
  let shifted := days + epochOffset
  let era := shifted.fdiv daysPerEra
  let dayOfEra := shifted - era * daysPerEra
  let yearOfEra := (dayOfEra - dayOfEra / 1460 + dayOfEra / 36524 - dayOfEra / 146096) / 365
  let dayOfYear := dayOfEra - (365 * yearOfEra + yearOfEra / 4 - yearOfEra / 100)
  let monthFromMarch := (5 * dayOfYear + 2) / 153
  let day := dayOfYear - (153 * monthFromMarch + 2) / 5 + 1
  let month := if monthFromMarch < 10 then monthFromMarch + 3 else monthFromMarch - 9
  let year := yearOfEra + era * 400
  { year := if month ≤ 2 then year + 1 else year, month := month.toNat, day := day.toNat }

end CalendarDate

end Restconf
