/-!
# Instants

Points in time on the proleptic Gregorian calendar, in UTC, to the nanosecond. A leap second
has its own readings: it is counted as the second before it, with nanoseconds from a thousand
million on.
-/

namespace Chartkeeper

/-- Seconds since the start of 1970 and nanoseconds within the second. -/
structure Instant where
  seconds : Int
  nanos : Nat
  deriving DecidableEq, Repr, Inhabited

/-- A day of the calendar. -/
structure Day where
  year : Int
  month : Nat
  day : Nat
  deriving DecidableEq, Repr, Inhabited

namespace Day

/-- Whether a year has a 29th of February. -/
def isLeapYear (year : Int) : Bool :=
  year % 4 = 0 && (year % 100 ≠ 0 || year % 400 = 0)

/-- The number of days of a month; zero for a month that does not exist. -/
def monthLength (year : Int) (month : Nat) : Nat :=
  match month with
  | 1 | 3 | 5 | 7 | 8 | 10 | 12 => 31
  | 4 | 6 | 9 | 11 => 30
  | 2 => if isLeapYear year then 29 else 28
  | _ => 0

/-- Whether the calendar has this day, within the years that instants are kept for. -/
def isValid (d : Day) : Bool :=
  1 ≤ d.day && d.day ≤ monthLength d.year d.month && -262143 ≤ d.year && d.year ≤ 262142

/-- Days since the start of 1970. Years are counted from March, so that the leap day is their
last. -/
def toEpoch (d : Day) : Int :=
  let y : Int := if d.month ≤ 2 then d.year - 1 else d.year
  let era := y / 400
  let yearOfEra := y % 400
  -- from March on, the months before one have `(153 * n + 2) / 5` days
  let fromMarch := (d.month + 9) % 12
  let dayOfYear : Int := (153 * fromMarch + 2) / 5 + d.day - 1
  let dayOfEra := yearOfEra * 365 + yearOfEra / 4 - yearOfEra / 100 + dayOfYear
  era * 146097 + dayOfEra - 719468

/-- The day that is a number of days after the start of 1970. -/
def ofEpoch (days : Int) : Day :=
  let z := days + 719468
  let era := z / 146097
  let dayOfEra := z % 146097
  let yearOfEra := (dayOfEra - dayOfEra / 1460 + dayOfEra / 36524 - dayOfEra / 146096) / 365
  let dayOfYear := dayOfEra - (365 * yearOfEra + yearOfEra / 4 - yearOfEra / 100)
  let fromMarch := (5 * dayOfYear + 2) / 153
  let day := dayOfYear - (153 * fromMarch + 2) / 5 + 1
  let month := if fromMarch < 10 then fromMarch + 3 else fromMarch - 9
  let year := yearOfEra + era * 400
  ⟨if month ≤ 2 then year + 1 else year, month.toNat, day.toNat⟩

end Day

namespace Instant

/-- Whether one instant is not after another. -/
def le (a b : Instant) : Bool :=
  a.seconds < b.seconds || (a.seconds = b.seconds && a.nanos ≤ b.nanos)

/-- The day of an instant. -/
def day (t : Instant) : Day :=
  Day.ofEpoch (t.seconds / 86400)

/-- Whether the calendar of an instant is within the years that instants are kept for. -/
def isValid (t : Instant) : Bool :=
  t.day.isValid

end Instant

end Chartkeeper
