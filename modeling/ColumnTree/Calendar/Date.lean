/-
# Dates of the Gregorian calendar

A date is the number of days since 1 January 1970, so that order, equality and shifts are those of
integers.  Year, month and day are found by counting from 1 March of year 0 in eras of 400 years,
all of which have 146097 days: with the leap day at the end of the counted year, the months from
March on have lengths that one linear formula gives.

Years run from -262143 to 262142; `Date.inRange` tells whether a day number lies in them.
-/

namespace ColumnTree.Calendar

/-- A day, as the number of days since 1 January 1970. -/
structure Date where
  /-- The day number. -/
  number : Int
deriving DecidableEq, Repr

/-- The first and the last year of the calendar. -/
def firstYear : Int := -262143

@[inherit_doc firstYear]
def lastYear : Int := 262142

/-- Leap years: every fourth, but of the full centuries only every fourth. -/
def isLeap (year : Int) : Bool :=
  year % 4 == 0 && (year % 100 != 0 || year % 400 == 0)

/-- The days of a year. -/
def daysInYear (year : Int) : Nat :=
  if isLeap year then 366 else 365

/-- The days of a month. -/
def daysInMonth (year : Int) (month : Nat) : Nat :=
  match month with
  | 2 => if isLeap year then 29 else 28
  | 4 | 6 | 9 | 11 => 30
  | _ => 31

namespace Date

/-- The day number of a day of a month. -/
def numberOf (year : Int) (month day : Nat) : Int :=
  let y := if month ≤ 2 then year - 1 else year
  let era := y.fdiv 400
  let yearOfEra := y - era * 400
  let monthFromMarch : Int := if month ≤ 2 then month + 9 else (month : Int) - 3
  let dayOfYear := (153 * monthFromMarch + 2) / 5 + (day - 1)
  let dayOfEra := yearOfEra * 365 + yearOfEra / 4 - yearOfEra / 100 + dayOfYear
  era * 146097 + dayOfEra - 719468

/-- The date with this year, month and day, if there is one. -/
def ofCivil? (year : Int) (month day : Nat) : Option Date :=
  if firstYear ≤ year ∧ year ≤ lastYear ∧ 1 ≤ month ∧ month ≤ 12 ∧ 1 ≤ day ∧
      day ≤ daysInMonth year month then
    some ⟨numberOf year month day⟩
  else none

/-- Year, month and day. -/
def civil (d : Date) : Int × Nat × Nat :=
  let z := d.number + 719468
  let era := z.fdiv 146097
  let dayOfEra := z - era * 146097
  let yearOfEra := (dayOfEra - dayOfEra / 1460 + dayOfEra / 36524 - dayOfEra / 146096) / 365
  let dayOfYear := dayOfEra - (365 * yearOfEra + yearOfEra / 4 - yearOfEra / 100)
  let monthFromMarch := (5 * dayOfYear + 2) / 153
  let day := dayOfYear - (153 * monthFromMarch + 2) / 5 + 1
  let month := if monthFromMarch < 10 then monthFromMarch + 3 else monthFromMarch - 9
  let year := yearOfEra + era * 400 + (if month ≤ 2 then 1 else 0)
  (year, month.toNat, day.toNat)

/-- The year. -/
def year (d : Date) : Int := d.civil.1

/-- The month, from 1. -/
def month (d : Date) : Nat := d.civil.2.1

/-- The day of the month, from 1. -/
def day (d : Date) : Nat := d.civil.2.2

/-- The quarter of the year, from 1. -/
def quarter (d : Date) : Nat := (d.month - 1) / 3 + 1

/-- The day of the year, from 1. -/
def ordinal (d : Date) : Nat :=
  (d.number - numberOf d.year 1 1 + 1).toNat

/-- The date with this year and day of the year, if there is one. -/
def ofOrdinal? (year : Int) (ordinal : Int) : Option Date :=
  if firstYear ≤ year ∧ year ≤ lastYear ∧ 1 ≤ ordinal ∧ ordinal ≤ daysInYear year then
    some ⟨numberOf year 1 1 + (ordinal - 1)⟩
  else none

/-- The day of the week, Monday being 0.  1 January 1970 was a Thursday. -/
def weekday (d : Date) : Nat :=
  ((d.number + 3) % 7).toNat

/-- The day of the week, Sunday being 0. -/
def weekdayFromSunday (d : Date) : Nat :=
  (d.weekday + 1) % 7

/-- Weeks of the year, the first of them beginning with the first day of the year that is the given
day of the week (Monday being 0); the days before it are in week 0. -/
def weekFrom (start : Nat) (d : Date) : Nat :=
  (d.ordinal + 6 - (d.weekday + 7 - start) % 7) / 7

/-- Year and number of the ISO week, which belongs to the year of its Thursday. -/
def isoWeek (d : Date) : Int × Nat :=
  let thursday : Date := ⟨d.number - d.weekday + 3⟩
  (thursday.year, (thursday.ordinal - 1) / 7 + 1)

/-- The Monday of the first ISO week of a year: the week of 4 January. -/
def firstIsoMonday (year : Int) : Int :=
  let fourth : Date := ⟨numberOf year 1 4⟩
  fourth.number - fourth.weekday

/-- Is the day in the years of the calendar? -/
def inRange (d : Date) : Bool :=
  numberOf firstYear 1 1 ≤ d.number && d.number ≤ numberOf lastYear 12 31

/-- The date, if it is in the years of the calendar. -/
def checked? (d : Date) : Option Date :=
  if d.inRange then some d else none

/-- The date of a day of an ISO week, if the year has that week. -/
def ofIsoWeek? (year : Int) (week weekday : Nat) : Option Date :=
  let monday := firstIsoMonday year + 7 * ((week : Int) - 1)
  if 1 ≤ week ∧ monday < firstIsoMonday (year + 1) then
    checked? ⟨monday + weekday⟩
  else none

end Date

end ColumnTree.Calendar
