/-!
# Points in time

A point in time in UTC to the nanosecond, with the calendar that names it. A leap second is the
last second of its minute with a fraction of one second or more, so that points in time are ordered
by second and then by fraction.

* `daysOf`, `dateOf`: the number of a day, counted from the first of January 1970, and its date.
-/

namespace ResultSearch

/-- Seconds since 1970 began and a fraction in nanoseconds, one second or more in a leap second. -/
structure Timestamp where
  seconds : Int
  nanos : Nat
  deriving DecidableEq

namespace Timestamp

instance : Inhabited Timestamp := ⟨⟨0, 0⟩⟩

/-- Whether `a` is before `b`. -/
def before (a b : Timestamp) : Bool :=
  decide (a.seconds < b.seconds) || (a.seconds == b.seconds && decide (a.nanos < b.nanos))

theorem before_iff {a b : Timestamp} :
    a.before b = true ↔ a.seconds < b.seconds ∨ (a.seconds = b.seconds ∧ a.nanos < b.nanos) := by
  simp [before]

/-- A date of the Gregorian calendar, extended to all years. -/
structure Date where
  year : Int
  month : Nat
  day : Nat
  deriving DecidableEq

/-- Whether a year has a leap day. -/
def isLeap (year : Int) : Bool := year % 4 == 0 && (year % 100 != 0 || year % 400 == 0)

/-- The number of days of a month. -/
def daysInMonth (year : Int) (month : Nat) : Nat :=
  if month = 2 then if isLeap year then 29 else 28
  else if month = 4 ∨ month = 6 ∨ month = 9 ∨ month = 11 then 30
  else 31

/-- The first year that has a calendar. -/
def minYear : Int := -262143

/-- The last year that has a calendar. -/
def maxYear : Int := 262142

/-- Whether the date is one of the calendar. -/
def Date.isValid (d : Date) : Bool :=
  decide (minYear ≤ d.year) && decide (d.year ≤ maxYear) && decide (1 ≤ d.month) &&
    decide (d.month ≤ 12) && decide (1 ≤ d.day) && decide (d.day ≤ daysInMonth d.year d.month)

/-- The number of a date. Years begin in March here, so that the leap day comes last; the calendar
repeats every 400 years of 146097 days. -/
def daysOf (d : Date) : Int :=
  let y := if d.month ≤ 2 then d.year - 1 else d.year
  let era := y / 400
  let yearOfEra := y - era * 400
  let month : Int := if d.month ≤ 2 then (d.month : Int) + 9 else (d.month : Int) - 3
  let dayOfYear := (153 * month + 2) / 5 + d.day - 1
  let dayOfEra := yearOfEra * 365 + yearOfEra / 4 - yearOfEra / 100 + dayOfYear
  era * 146097 + dayOfEra - 719468

/-- The date with a number. -/
def dateOf (days : Int) : Date :=
  let z := days + 719468
  let era := z / 146097
  let dayOfEra := z - era * 146097
  let yearOfEra := (dayOfEra - dayOfEra / 1460 + dayOfEra / 36524 - dayOfEra / 146096) / 365
  let dayOfYear := dayOfEra - (365 * yearOfEra + yearOfEra / 4 - yearOfEra / 100)
  let m := (5 * dayOfYear + 2) / 153
  let day := dayOfYear - (153 * m + 2) / 5 + 1
  let month := if m < 10 then m + 3 else m - 9
  let year := yearOfEra + era * 400 + (if month ≤ 2 then 1 else 0)
  ⟨year, month.toNat, day.toNat⟩

/-- The seconds of a day, leap seconds apart. -/
def secondsPerDay : Int := 86400

end Timestamp

end ResultSearch
