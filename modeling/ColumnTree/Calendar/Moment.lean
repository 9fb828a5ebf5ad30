/-
# Moments: a date and a time of day

Without time zone.  The time of day is a count of whole seconds and of nanoseconds.  A leap second
is the second before it with a thousand million nanoseconds or more, and is shown as second 60.

Elapsed time is counted as on a clock that knows only the leap seconds of its two ends.
-/
import ColumnTree.Calendar.Date

namespace ColumnTree.Calendar

/-- A date and a time of day. -/
structure Moment where
  /-- The date. -/
  date : Date
  /-- Seconds since midnight. -/
  second : Nat
  /-- Nanoseconds, up to two thousand million in a leap second. -/
  nano : Nat
deriving DecidableEq, Repr

/-- A thousand million. -/
def giga : Nat := 1000000000

namespace Moment

/-- The moment at a time of day, if there is one; nanoseconds may exceed a second only in the last
second of a minute. -/
def ofParts? (date : Date) (hour minute second nano : Nat) : Option Moment :=
  if hour < 24 ∧ minute < 60 ∧ second < 60 ∧ nano < 2 * giga ∧ (nano < giga ∨ second = 59) then
    some ⟨date, hour * 3600 + minute * 60 + second, nano⟩
  else none

/-- The first moment of a day. -/
def midnight (date : Date) : Moment := ⟨date, 0, 0⟩

/-- The hour of the day. -/
def hour (m : Moment) : Nat := m.second / 3600

/-- The minute of the hour. -/
def minute (m : Moment) : Nat := m.second / 60 % 60

/-- The second of the minute, 59 in a leap second. -/
def secondOfMinute (m : Moment) : Nat := m.second % 60

/-- The second of the minute as it is shown, 60 in a leap second. -/
def shownSecond (m : Moment) : Nat := m.secondOfMinute + m.nano / giga

/-- The nanosecond of the second. -/
def fraction (m : Moment) : Nat := m.nano % giga

/-- The hour on a clock face of twelve. -/
def hour12 (m : Moment) : Nat :=
  if m.hour % 12 = 0 then 12 else m.hour % 12

/-- Is it noon or later? -/
def isAfternoon (m : Moment) : Bool := 12 ≤ m.hour

/-- Whole seconds since 1 January 1970. -/
def timestamp (m : Moment) : Int :=
  m.date.number * 86400 + m.second

/-- Milliseconds since 1 January 1970. -/
def timestampMillis (m : Moment) : Int :=
  m.timestamp * 1000 + (m.nano / 1000000 : Nat)

/-- The moment so many seconds and nanoseconds after 1 January 1970, if the calendar has it. -/
def ofTimestamp? (seconds : Int) (nano : Nat) : Option Moment := do
  let date ← Date.checked? ⟨seconds.fdiv 86400⟩
  return ⟨date, (seconds.fmod 86400).toNat, nano⟩

/-- The moment so many milliseconds after 1 January 1970, if the calendar has it. -/
def ofMillis? (millis : Int) : Option Moment :=
  ofTimestamp? (millis.fdiv 1000) ((millis.fmod 1000).toNat * 1000000)

/-- The moment so many days later.  A shift leaves a leap second: forward to the same time in an
ordinary second, backward to the second after it. -/
def addDays? (m : Moment) (days : Int) : Option Moment :=
  if days = 0 ∨ m.nano < giga then do
    return ⟨← Date.checked? ⟨m.date.number + days⟩, m.second, m.nano⟩
  else if 0 < days then do
    return ⟨← Date.checked? ⟨m.date.number + days⟩, m.second, m.nano - giga⟩
  else
    ofTimestamp? (m.timestamp + 1 + days * 86400) (m.nano - giga)

/-- The moment so many seconds earlier, a leap second staying one. -/
def minusSeconds (m : Moment) (seconds : Int) : Moment :=
  let t := m.timestamp - seconds
  ⟨⟨t.fdiv 86400⟩, (t.fmod 86400).toNat, m.nano⟩

/-- Whole days from one moment to another, rounded toward zero.  A leap second at the earlier time
of day counts as a second of its own. -/
def daysTo (start stop : Moment) : Int :=
  let leap : Int :=
    if start.second < stop.second ∧ giga ≤ start.nano then 1
    else if stop.second < start.second ∧ giga ≤ stop.nano then -1
    else 0
  let nanos := (stop.timestamp - start.timestamp + leap) * giga + ((stop.nano : Int) - start.nano)
  nanos.tdiv (86400 * giga)

/-- Order by date, then by time of day. -/
def compare (a b : Moment) : Ordering :=
  (Ord.compare a.date.number b.date.number).then
    ((Ord.compare a.second b.second).then (Ord.compare a.nano b.nano))

end Moment

end ColumnTree.Calendar
