import MovieAtoms.Decimal.Fixed

/-!
# Dates of a movie

A movie keeps its dates as seconds since the first of January 1904, in universal time. They become
instants, which are milliseconds from the start of 1970, before or after it. The date of an instant
is the one of the Gregorian calendar, without leap seconds: whole cycles of four hundred years, whole
years and whole months are taken off the front of the count of days.

Instants, their dates and the two forms in which these are written follow what chrono documents: the
form for people is its `%Y-%m-%d %H:%M:%S UTC`, where a year beyond four digits has a sign, and the
form for machines is the one of RFC 3339.
-/

namespace MovieAtoms

namespace Calendar

def isLeap (year : Nat) : Bool := year % 4 = 0 && (year % 100 ≠ 0 || year % 400 = 0)

def monthLengths (year : Nat) : List Nat :=
  [31, if isLeap year then 29 else 28, 31, 30, 31, 30, 31, 31, 30, 31, 30, 31]

def yearLength (year : Nat) : Nat := if isLeap year then 366 else 365

theorem sum_monthLengths (year : Nat) :
    (monthLengths year).foldr (· + ·) 0 = yearLength year := by
  unfold monthLengths yearLength
  cases isLeap year <;> rfl

theorem yearLength_pos (year : Nat) : 0 < yearLength year := by
  unfold yearLength
  split <;> decide

/-- The year that a day falls into, counted from the start of `year`, and the day's place in it. -/
def splitYears (year day : Nat) : Nat × Nat :=
  if day < yearLength year then (year, day) else splitYears (year + 1) (day - yearLength year)
termination_by day
decreasing_by
  have := yearLength_pos year
  omega

/-- The month that a day falls into, given the lengths from `month` on, and the day's place in it. -/
def splitMonths (month : Nat) : List Nat → Nat → Nat × Nat
  | [], day => (month, day)
  | length :: lengths, day =>
      if day < length then (month, day) else splitMonths (month + 1) lengths (day - length)

/-- The days of four hundred years, after which the leap years repeat. -/
def cycleLength : Nat := 146097

/-- Year, month and day of the month, so many days after the start of the year 0, or before it. -/
def dateOfDay (day : Int) : Int × Nat × Nat :=
  let (year, dayOfYear) := splitYears 0 (day % cycleLength).toNat
  let (month, dayOfMonth) := splitMonths 1 (monthLengths year) dayOfYear
  (400 * (day / cycleLength) + year, month, dayOfMonth + 1)

/-- The days from the start of the year 0 to the start of 1970. -/
def unixDay : Nat := 719528

end Calendar

/-- A day of the calendar and a time on it. Months and days count from one. -/
structure CivilTime where
  year : Int
  month : Nat
  day : Nat
  hour : Nat
  minute : Nat
  second : Nat
  deriving DecidableEq, Repr

namespace CivilTime

def secondsPerDay : Nat := 86400

/-- The date and time so many seconds after the start of 1970, or before it. -/
def ofUnixSeconds (seconds : Int) : CivilTime :=
  -- division rounds down, so before 1970 too a day begins at midnight
  let (year, month, day) := Calendar.dateOfDay (seconds / secondsPerDay + Calendar.unixDay)
  let time := (seconds % secondsPerDay).toNat
  ⟨year, month, day, time / 3600, time / 60 % 60, time % 60⟩

/-- The years from 0 to 9999 have four digits, the others a sign and at least four. -/
def yearText (year : Int) : List Char :=
  if 0 ≤ year ∧ year ≤ 9999 then Decimal.padded 4 year.toNat
  else (if year < 0 then '-' else '+') :: Decimal.padded 4 year.natAbs

/-- Year, month and day, as in `2024-01-31`. -/
def dateText (time : CivilTime) : List Char :=
  yearText time.year ++ '-' :: Decimal.padded 2 time.month ++
    '-' :: Decimal.padded 2 time.day

/-- Hour, minute and second, as in `23:59:59`. -/
def clockText (time : CivilTime) : List Char :=
  Decimal.padded 2 time.hour ++ ':' :: Decimal.padded 2 time.minute ++
    ':' :: Decimal.padded 2 time.second

/-- The form for people, as in `2024-01-31 23:59:59 UTC`. -/
def text (time : CivilTime) : String :=
  String.ofList (time.dateText ++ ' ' :: time.clockText) ++ " UTC"

/-- The form for machines, as in `2024-01-31T23:59:59+00:00`. -/
def internetText (time : CivilTime) : String :=
  String.ofList (time.dateText ++ 'T' :: time.clockText) ++ "+00:00"

end CivilTime

/-- A point in time, in milliseconds from the start of 1970. -/
structure Instant where
  unixMilliseconds : Int64
  deriving DecidableEq, Repr

namespace Instant

/-- The start of 1970, which stands in where an instant is missing. -/
def unixStart : Instant := ⟨0⟩

/-- The instants that have a date, from the start of the year -262143 to the end of 262142. -/
def ofUnixMilliseconds? (count : Int64) : Option Instant :=
  if -8334601228800000 ≤ count.toInt ∧ count.toInt ≤ 8210266876799999 then some ⟨count⟩ else none

def civil (instant : Instant) : CivilTime :=
  CivilTime.ofUnixSeconds (instant.unixMilliseconds.toInt / 1000)

end Instant

/-- A date as a movie keeps it: seconds since the start of 1904. -/
structure Timestamp where
  seconds : UInt32
  deriving DecidableEq, Repr

namespace Timestamp

/-- The seconds from the start of 1904 to the start of 1970. -/
def unixEpoch : Int64 := 2082844800

def secondsFromUnixStart (time : Timestamp) : Int64 := time.seconds.toUInt64.toInt64 - unixEpoch

def millisecondsFromUnixStart (time : Timestamp) : Int64 := time.secondsFromUnixStart * 1000

/-- The instant of a date, where `instant?` finds the instants that there are. -/
def instantBy (instant? : Int64 → Option Instant) (time : Timestamp) : Instant :=
  (instant? time.millisecondsFromUnixStart).getD Instant.unixStart

/-- The form for people, as in `2024-01-31 23:59:59 UTC`. -/
def textBy (instant? : Int64 → Option Instant) (time : Timestamp) : String :=
  (time.instantBy instant?).civil.text

def instant (time : Timestamp) : Instant := time.instantBy Instant.ofUnixMilliseconds?

def unixMilliseconds (time : Timestamp) : Int := time.instant.unixMilliseconds.toInt

def text (time : Timestamp) : String := time.textBy Instant.ofUnixMilliseconds?

def internetText (time : Timestamp) : String := time.instant.civil.internetText

end Timestamp

end MovieAtoms
