/-
# The civil calendar

Days are counted from 1 January 1970 and named by year, month and day of the
proleptic Gregorian calendar, in which the year before year one is year zero.
Counting starts from 1 March of year zero, so that the leap day is the last day
of its year; four hundred years have 146097 days.

A moment is a second of universal time with a fraction and with the distance of
local time from universal time. A fraction of a full second or more marks the
leap second that follows the named one.
-/

namespace VersionTrail.Calendar

/-- A day of the civil calendar. -/
structure Date where
  year : Int
  month : Nat
  day : Nat
  deriving DecidableEq, Repr

/-- Whether a year has a leap day. -/
def isLeap (year : Int) : Bool :=
  year % 4 == 0 && (year % 100 != 0 || year % 400 == 0)

/-- How many days a month has. -/
def daysInMonth (year : Int) (month : Nat) : Nat :=
  if month = 2 then (if isLeap year then 29 else 28)
  else if month = 4 ∨ month = 6 ∨ month = 9 ∨ month = 11 then 30
  else 31

/-- The first and the last year for which dates are known. -/
def firstYear : Int := -262143

/-- The last year for which dates are known. -/
def lastYear : Int := 262142

/-- Whether a date names a day of the calendar within the known years. -/
def Date.isValid (d : Date) : Bool :=
  firstYear ≤ d.year && d.year ≤ lastYear && 1 ≤ d.month && d.month ≤ 12 && 1 ≤ d.day &&
    d.day ≤ daysInMonth d.year d.month

/-- The number of a day, counted from 1 January 1970. -/
def Date.toDays (d : Date) : Int :=
  let y := if d.month ≤ 2 then d.year - 1 else d.year
  let era := y / 400
  let yearOfEra := y - era * 400
  let month : Int := (d.month + 9) % 12
  let dayOfYear := (153 * month + 2) / 5 + d.day - 1
  let dayOfEra := yearOfEra * 365 + yearOfEra / 4 - yearOfEra / 100 + dayOfYear
  era * 146097 + dayOfEra - 719468

/-- The day with a number, counted from 1 January 1970. -/
def Date.ofDays (n : Int) : Date :=
  let z := n + 719468
  let era := z / 146097
  let dayOfEra := z - era * 146097
  let yearOfEra := (dayOfEra - dayOfEra / 1460 + dayOfEra / 36524 - dayOfEra / 146096) / 365
  let dayOfYear := dayOfEra - (365 * yearOfEra + yearOfEra / 4 - yearOfEra / 100)
  let month := (5 * dayOfYear + 2) / 153
  let day := dayOfYear - (153 * month + 2) / 5 + 1
  let m := if month < 10 then month + 3 else month - 9
  let y := yearOfEra + era * 400
  ⟨if m ≤ 2 then y + 1 else y, m.toNat, day.toNat⟩

/-- The number of a day in its year, the first being one. -/
def Date.ordinal (d : Date) : Nat :=
  (d.toDays - (Date.mk d.year 1 1).toDays + 1).toNat

/-- The weekday of a day, Monday being zero. -/
def Date.weekday (d : Date) : Nat :=
  ((d.toDays + 3) % 7).toNat

/-- The number of the weeks that started in the year, up to this day, with the
given weekday as the first of a week. -/
def Date.weekFrom (d : Date) (first : Nat) : Nat :=
  (d.ordinal + 6 - (d.weekday + 7 - first) % 7) / 7

/-- The quarter of the year. -/
def Date.quarter (d : Date) : Nat :=
  (d.month - 1) / 3 + 1

/-- The year and number of the week that holds the day. A week starts on Monday
and belongs to the year that its Thursday lies in. -/
def Date.isoWeek (d : Date) : Int × Nat :=
  let thursday := Date.ofDays (d.toDays - d.weekday + 3)
  (thursday.year, (thursday.ordinal - 1) / 7 + 1)

/-- A moment and the offset of its local time. -/
structure Moment where
  /-- Seconds since the start of 1970, universal time. -/
  seconds : Int
  /-- Nanoseconds; those of a leap second start at a full second. -/
  nanos : Nat
  /-- Seconds by which local time is ahead of universal time. -/
  offset : Int
  deriving DecidableEq, Repr, Inhabited

/-- A time of the day. -/
structure TimeOfDay where
  hour : Nat
  minute : Nat
  second : Nat
  nanos : Nat
  deriving DecidableEq, Repr

namespace Moment

/-- Seconds since the start of 1970, local time. -/
def localSeconds (m : Moment) : Int :=
  m.seconds + m.offset

/-- The local day. -/
def date (m : Moment) : Date :=
  .ofDays (m.localSeconds / 86400)

/-- The local time of the day. -/
def time (m : Moment) : TimeOfDay :=
  let s := (m.localSeconds % 86400).toNat
  ⟨s / 3600, s / 60 % 60, s % 60, m.nanos⟩

/-- Whether an offset is shorter than a day. -/
def offsetFits (offset : Int) : Bool :=
  -86400 < offset && offset < 86400

/-- The moment of a count of seconds, where its day lies in the known years and
its offset is shorter than a day. -/
def ofSeconds? (seconds offset : Int) : Option Moment :=
  let year := (Date.ofDays (seconds / 86400)).year
  if offsetFits offset ∧ firstYear ≤ year ∧ year ≤ lastYear then some ⟨seconds, 0, offset⟩
  else none

/-- The moment of a local date and time. -/
def ofLocal (d : Date) (t : TimeOfDay) (offset : Int) : Moment :=
  ⟨d.toDays * 86400 + (t.hour * 3600 + t.minute * 60 + t.second : Nat) - offset, t.nanos, offset⟩

end Moment

end VersionTrail.Calendar
