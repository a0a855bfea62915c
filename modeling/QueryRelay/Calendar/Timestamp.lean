/-!
# Points in time

A timestamp counts seconds since the start of 1970 and nanoseconds within the second; during a leap
second the nanoseconds go on beyond a thousand million. Its calendar date follows the proleptic
Gregorian rule over the years `Timestamp.firstYear` to `Timestamp.lastYear`.
-/

namespace QueryRelay

/-- A point in time, to the nanosecond. -/
structure Timestamp where
  /-- Whole seconds since the start of 1970, negative before it. -/
  seconds : Int
  /-- Nanoseconds within the second; from a thousand million on, those of a leap second. -/
  nanos : Nat
deriving DecidableEq, Inhabited

/-- A calendar date. -/
structure CivilDate where
  /-- The year, zero being the year before year one. -/
  year : Int
  /-- The month, from one. -/
  month : Nat
  /-- The day of the month, from one. -/
  day : Nat
deriving DecidableEq, Inhabited

namespace CivilDate

/-- Whether a year has a twenty-ninth of February. -/
def isLeapYear (year : Int) : Bool :=
  year % 4 == 0 && (year % 100 != 0 || year % 400 == 0)

/-- The number of days of a month. -/
def daysInMonth (year : Int) (month : Nat) : Nat :=
  if month = 2 then (if isLeapYear year then 29 else 28)
  else if month = 4 ∨ month = 6 ∨ month = 9 ∨ month = 11 then 30
  else 31

/-- Whether month and day exist. -/
def isValid (d : CivilDate) : Bool :=
  decide (1 ≤ d.month) && decide (d.month ≤ 12) && decide (1 ≤ d.day) &&
    decide (d.day ≤ daysInMonth d.year d.month)

/-- Days from the start of 1970 to a date. Years are counted from March, so that the leap day is
the last of its year, and in eras of four hundred. -/
def toDays (d : CivilDate) : Int :=
  let year := if d.month ≤ 2 then d.year - 1 else d.year
  let era := year / 400
  let yearOfEra := year - era * 400
  let shifted : Int := if 2 < d.month then (d.month : Int) - 3 else (d.month : Int) + 9
  let dayOfYear := (153 * shifted + 2) / 5 + (d.day : Int) - 1
  era * 146097 + (yearOfEra * 365 + yearOfEra / 4 - yearOfEra / 100 + dayOfYear) - 719468

/-- The date a number of days after the start of 1970. -/
def ofDays (days : Int) : CivilDate :=
  let fromEra := days + 719468
  let era := fromEra / 146097
  let dayOfEra := fromEra - era * 146097
  let yearOfEra := (dayOfEra - dayOfEra / 1460 + dayOfEra / 36524 - dayOfEra / 146096) / 365
  let dayOfYear := dayOfEra - (365 * yearOfEra + yearOfEra / 4 - yearOfEra / 100)
  let shifted := (5 * dayOfYear + 2) / 153
  let month := if shifted < 10 then shifted + 3 else shifted - 9
  let year := yearOfEra + era * 400
  ⟨if month ≤ 2 then year + 1 else year, month.toNat,
    (dayOfYear - (153 * shifted + 2) / 5 + 1).toNat⟩

end CivilDate

namespace Timestamp

/-- The first year with a representable date. -/
def firstYear : Int := -262143

/-- The last year with a representable date. -/
def lastYear : Int := 262142

/-- The first second of the first year. -/
def firstSecond : Int := CivilDate.toDays ⟨firstYear, 1, 1⟩ * 86400

/-- The last second of the last year. -/
def lastSecond : Int := CivilDate.toDays ⟨lastYear, 12, 31⟩ * 86400 + 86399

/-- Whether a second lies in the representable years. -/
def inRange (seconds : Int) : Bool :=
  decide (firstSecond ≤ seconds) && decide (seconds ≤ lastSecond)

/-- The calendar date. -/
def date (t : Timestamp) : CivilDate := CivilDate.ofDays (t.seconds / 86400)

/-- The second of the day, a leap second not counted. -/
def secondOfDay (t : Timestamp) : Nat := (t.seconds % 86400).toNat

/-- Whether this lies within a leap second. -/
def isLeapSecond (t : Timestamp) : Bool := decide (1000000000 ≤ t.nanos)

/-- Earlier first; by second, then by nanosecond. -/
def compare (s t : Timestamp) : Ordering :=
  (Ord.compare s.seconds t.seconds).then (Ord.compare s.nanos t.nanos)

/-- The seconds a span of days may have on either side of zero. -/
def longestSpan : Int := 9223372036854775

/-- The same time of day a number of days later. A leap second is left on the way: forward to the
ordinary second it extends, backward to the one after. Nothing comes out when the span or the
result is beyond what can be represented. -/
def addDays? (t : Timestamp) (days : Int) : Option Timestamp :=
  let span := days * 86400
  let (seconds, nanos) :=
    if !t.isLeapSecond || span = 0 then (t.seconds, t.nanos)
    else if 0 < span then (t.seconds, t.nanos - 1000000000)
    else (t.seconds + 1, t.nanos - 1000000000)
  if span < -longestSpan ∨ longestSpan < span then none
  else if inRange (seconds + span) then some ⟨seconds + span, nanos⟩
  else none

end Timestamp
end QueryRelay
