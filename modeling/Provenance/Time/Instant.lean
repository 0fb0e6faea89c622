/-!
# Instants

An instant is counted in seconds from the beginning of 1970 in universal time, with nanoseconds
within the second. The last second of a minute can be a leap second, which has the count of the
second before it and a billion nanoseconds more. Days are counted in the Gregorian calendar, which is
continued into the past: `civil` and `dayNumber` go from the count of days to year, month and day and
back.
-/

namespace Provenance

/-- A point in time. -/
structure Instant where
  seconds : Int
  nanos : Nat
  deriving DecidableEq, Repr, Inhabited

namespace Calendar

/-- A year, a month from one and a day of the month from one. -/
structure Date where
  year : Int
  month : Nat
  day : Nat
  deriving DecidableEq, Repr

/-- The days in four hundred years. -/
def eraDays : Nat := 146097

/-- The days from the first of March of the year zero to the beginning of 1970. -/
def epochDays : Int := 719468

/-- A year of 366 days. -/
def isLeap (year : Int) : Bool := year % 4 = 0 && (year % 100 ≠ 0 || year % 400 = 0)

/-- The days of a month. -/
def monthDays (year : Int) (month : Nat) : Nat :=
  if month = 2 then (if isLeap year then 29 else 28)
  else if month = 4 ∨ month = 6 ∨ month = 9 ∨ month = 11 then 30 else 31

/-- The date exists. -/
def Date.isValid (d : Date) : Bool :=
  1 ≤ d.month && d.month ≤ 12 && 1 ≤ d.day && d.day ≤ monthDays d.year d.month

/-- The number of days from the beginning of 1970 to a date. Years are taken to begin in March. -/
def Date.dayNumber (d : Date) : Int :=
  let year := if d.month ≤ 2 then d.year - 1 else d.year
  let era := year.fdiv 400
  let yearOfEra := (year - era * 400).toNat
  let month := (d.month + 9) % 12
  let dayOfYear := (153 * month + 2) / 5 + d.day - 1
  let dayOfEra := yearOfEra * 365 + yearOfEra / 4 - yearOfEra / 100 + dayOfYear
  era * eraDays + dayOfEra - epochDays

/-- The date that many days after the beginning of 1970. -/
def civil (days : Int) : Date :=
  let days := days + epochDays
  let era := days.fdiv eraDays
  let dayOfEra := (days - era * eraDays).toNat
  let yearOfEra :=
    (dayOfEra - dayOfEra / 1460 + dayOfEra / 36524 - dayOfEra / 146096) / 365
  let dayOfYear := dayOfEra - (365 * yearOfEra + yearOfEra / 4 - yearOfEra / 100)
  let month := (5 * dayOfYear + 2) / 153
  let day := dayOfYear - (153 * month + 2) / 5 + 1
  let year : Int := yearOfEra + era * 400
  if month < 10 then ⟨year, month + 3, day⟩ else ⟨year + 1, month - 9, day⟩

/-- The first and the last year that are counted. -/
def years : Int × Int := (-262143, 262142)

end Calendar

end Provenance
