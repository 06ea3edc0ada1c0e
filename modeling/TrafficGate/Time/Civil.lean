import TrafficGate.Text.Numeral
/-!
  # Civil dates

  Days counted from 1970-01-01 and the dates of the Gregorian calendar, also before it was adopted
  and with a year zero.

  1. `Date` and which dates there are;
  2. `Date.toDays` and `Date.ofDays`, by eras of 400 years that begin in March;
  3. the years that the program handles.

  Main fact: **`monthLength_le`** (no month has more than 31 days).
-/

namespace TrafficGate.Time

/-! ## 1. Dates -/

/-- A date: year, month from 1, day of the month from 1. -/
structure Date where
  year : Int
  month : Nat
  day : Nat
  deriving DecidableEq, Repr

/-- Whether a year has a 29th of February. -/
def isLeapYear (y : Int) : Bool := (y % 4 == 0 && y % 100 != 0) || y % 400 == 0

/-- The number of days of a month. -/
def monthLength (y : Int) (m : Nat) : Nat :=
  if m = 2 then (if isLeapYear y then 29 else 28)
  else if m = 4 ∨ m = 6 ∨ m = 9 ∨ m = 11 then 30
  else 31

/-- **No month has more than 31 days.** -/
theorem monthLength_le (y : Int) (m : Nat) : monthLength y m ≤ 31 := by
  unfold monthLength
  split
  · split <;> decide
  · split <;> decide

/-! ## 2. Days -/

/-- The number of days in 400 years. -/
def eraDays : Int := 146097

/-- The days from 0000-03-01 to 1970-01-01. -/
def epochOffset : Int := 719468

/-- The days from 1970-01-01 to a date. -/
def Date.toDays (d : Date) : Int :=
  let y : Int := if d.month ≤ 2 then d.year - 1 else d.year
  let yearOfEra := y % 400
  let monthFromMarch : Int := if 2 < d.month then (d.month : Int) - 3 else (d.month : Int) + 9
  let dayOfYear := (153 * monthFromMarch + 2) / 5 + (d.day : Int) - 1
  let dayOfEra := yearOfEra * 365 + yearOfEra / 4 - yearOfEra / 100 + dayOfYear
  y / 400 * eraDays + dayOfEra - epochOffset

/-- The date that lies a number of days after 1970-01-01. -/
def Date.ofDays (days : Int) : Date :=
  let z := days + epochOffset
  let dayOfEra := z % eraDays
  let yearOfEra := (dayOfEra - dayOfEra / 1460 + dayOfEra / 36524 - dayOfEra / 146096) / 365
  let dayOfYear := dayOfEra - (365 * yearOfEra + yearOfEra / 4 - yearOfEra / 100)
  let monthFromMarch := (5 * dayOfYear + 2) / 153
  let day := dayOfYear - (153 * monthFromMarch + 2) / 5 + 1
  let month := if monthFromMarch < 10 then monthFromMarch + 3 else monthFromMarch - 9
  let year := yearOfEra + z / eraDays * 400
  { year := if month ≤ 2 then year + 1 else year, month := month.toNat, day := day.toNat }

/-! ## 3. Years -/

/-- The first year that dates are handled for. -/
def minYear : Int := -262143

/-- The last year that dates are handled for. -/
def maxYear : Int := 262142

/-- Whether a year is one that dates are handled for. -/
def isHandledYear (y : Int) : Bool := decide (minYear ≤ y) && decide (y ≤ maxYear)

/-- Whether there is such a date, in a year that is handled. -/
def Date.isValid (d : Date) : Bool :=
  isHandledYear d.year && decide (1 ≤ d.month) && decide (d.month ≤ 12) && decide (1 ≤ d.day) &&
    decide (d.day ≤ monthLength d.year d.month)

end TrafficGate.Time
