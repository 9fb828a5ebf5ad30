/-
# What a text says about a moment

Reading a date by a template collects evidence: numbers for some of the parts of a moment, each of
them in its range and not contradicted by another.  From the evidence a date, a time of day or a
moment is worked out, if there is enough, and then every other part that was given must agree.

A date follows from year, month and day; year and day of the year; year, week and day of the week,
weeks counted from Sunday or from Monday; or ISO year, ISO week and day of the week, in this order.
A year of two digits below 70 belongs to the century from 2000, any other to the one from 1900.
-/
import ColumnTree.Calendar.Moment
import ColumnTree.Decimal.Power

namespace ColumnTree.Calendar

/-- Why evidence gives no moment. -/
inductive Gap where
  /-- Some part that is needed was not given. -/
  | missing
  /-- The parts contradict each other or leave the calendar. -/
  | wrong
deriving DecidableEq, Repr

/-- The parts of a moment that were given. -/
structure Evidence where
  year : Option Int := none
  century : Option Nat := none
  yearOfCentury : Option Nat := none
  isoYear : Option Int := none
  isoYearOfCentury : Option Nat := none
  quarter : Option Nat := none
  month : Option Nat := none
  day : Option Nat := none
  weekFromSunday : Option Nat := none
  weekFromMonday : Option Nat := none
  isoWeek : Option Nat := none
  /-- Monday is 0. -/
  weekday : Option Nat := none
  dayOfYear : Option Nat := none
  /-- 1 from noon on. -/
  half : Option Nat := none
  /-- The hour since midnight or noon. -/
  hourOfHalf : Option Nat := none
  minute : Option Nat := none
  second : Option Nat := none
  nano : Option Nat := none
  timestamp : Option Int := none
  /-- The distance of the zone, in seconds. -/
  zone : Option Int := none

/-- Enters a value where none stands yet; one that stands must be the same. -/
def enter {α : Type} [DecidableEq α] (old : Option α) (new : α) : Option (Option α) :=
  match old with
  | some a => if a = new then some (some a) else none
  | none => some (some new)

/-- Enters a value that must lie in a range. -/
def enterWithin (low high : Nat) (old : Option Nat) (new : Nat) : Option (Option Nat) :=
  if low ≤ new ∧ new ≤ high then enter old new else none

namespace Evidence

/-- Enters a year; it must fit 32 bits. -/
def enterYear (old : Option Int) (y : Int) : Option (Option Int) :=
  if -(twoTo 31 : Int) ≤ y ∧ y < twoTo 31 then enter old y else none

/-- Enters an hour from 0 to 23. -/
def withHour (e : Evidence) (hour : Nat) : Option Evidence := do
  let half ← enterWithin 0 1 e.half (hour / 12)
  let hourOfHalf ← enter e.hourOfHalf (hour % 12)
  return { e with half, hourOfHalf }

/-- The year that a full year, a century and a year of a century give together. -/
def resolveYear (year : Option Int) (century yearOfCentury : Option Nat) :
    Except Gap (Option Int) :=
  match year, century, yearOfCentury with
  | y, none, none => .ok y
  | some y, q, r =>
    if 0 ≤ y ∧ (q.getD (y / 100).toNat : Nat) = y / 100 ∧ (r.getD (y % 100).toNat : Nat) = y % 100
    then .ok (some y) else .error .wrong
  | none, some q, some r =>
    let y := (q : Int) * 100 + r
    if y < twoTo 31 then .ok (some y) else .error .wrong
  | none, none, some r => .ok (some (r + if r < 70 then 2000 else 1900))
  | none, some _, none => .error .missing

/-- Is a value that may have been given the true one? -/
def agrees {α : Type} [DecidableEq α] (given : Option α) (value : α) : Bool :=
  given.all (· = value)

/-- Does a given part of a century agree with a year?  No part of one fits a negative year. -/
def agreesOfYear (given : Option Nat) (year value : Int) : Bool :=
  given.all fun g => 0 ≤ year && (g : Int) == value

/-- Do year, month and day agree with a date? -/
def civilAgrees (e : Evidence) (d : Date) : Bool :=
  agrees e.year d.year && agreesOfYear e.century d.year (d.year / 100) &&
    agreesOfYear e.yearOfCentury d.year (d.year % 100) && agrees e.month d.month &&
    agrees e.day d.day

/-- Do ISO year, ISO week and day of the week agree with a date? -/
def isoAgrees (e : Evidence) (d : Date) : Bool :=
  let (year, week) := d.isoWeek
  agrees e.isoYear year && agreesOfYear e.isoYearOfCentury year (year % 100) &&
    agrees e.isoWeek week && agrees e.weekday d.weekday

/-- Do the day of the year and the weeks counted from its start agree with a date? -/
def ordinalAgrees (e : Evidence) (d : Date) : Bool :=
  agrees e.dayOfYear d.ordinal && agrees e.weekFromSunday (d.weekFrom 6) &&
    agrees e.weekFromMonday (d.weekFrom 0)

/-- The date of a day of a week that is counted from a first day of the week. -/
def ofWeek (year : Int) (week weekday start : Nat) : Except Gap Date :=
  match Date.ofOrdinal? year 1 with
  | none => .error .wrong
  | some first =>
    let firstStart : Int := 1 + ((start + 7 - first.weekday) % 7 : Nat)
    let ordinal := firstStart + ((week : Int) - 1) * 7 + ((weekday + 7 - start) % 7 : Nat)
    match Date.ofOrdinal? year ordinal with
    | some d => .ok d
    | none => .error .wrong

/-- A date that must exist and pass a check. -/
def confirm (d : Option Date) (check : Date → Bool) : Except Gap Date :=
  match d with
  | some d => if check d then .ok d else .error .wrong
  | none => .error .wrong

/-- The date that the evidence gives. -/
def date (e : Evidence) : Except Gap Date := do
  let year ← resolveYear e.year e.century e.yearOfCentury
  let isoYear ← resolveYear e.isoYear none e.isoYearOfCentury
  let all := fun d => e.civilAgrees d && e.isoAgrees d && e.ordinalAgrees d
  let fromWeeks : Except Gap Date :=
    match isoYear, e.isoWeek, e.weekday with
    | some y, some w, some wd =>
      confirm (Date.ofIsoWeek? y w wd) fun d => e.civilAgrees d && e.ordinalAgrees d
    | _, _, _ => .error .missing
  let d ← match year with
    | none => fromWeeks
    | some y =>
      match e.month, e.day, e.dayOfYear, e.weekFromSunday, e.weekFromMonday, e.weekday with
      | some m, some day, _, _, _, _ =>
        confirm (Date.ofCivil? y m day) fun d => e.isoAgrees d && e.ordinalAgrees d
      | _, _, some n, _, _, _ => confirm (Date.ofOrdinal? y n) all
      | _, _, _, some w, _, some wd => do confirm (some (← ofWeek y w wd 6)) all
      | _, _, _, _, some w, some wd => do confirm (some (← ofWeek y w wd 0)) all
      | _, _, _, _, _, _ => fromWeeks
  if agrees e.quarter d.quarter then return d else throw .wrong

/-- The time of day that the evidence gives, on a date.  Seconds may be missing, but then no
fraction may be given. -/
def time (e : Evidence) (d : Date) : Except Gap Moment := do
  let some half := e.half | throw .missing
  let some hour := e.hourOfHalf | throw .missing
  let some minute := e.minute | throw .missing
  let second := e.second.getD 0
  if e.nano.isSome && e.second.isNone then throw .missing
  let leap := if second = 60 then giga else 0
  match Moment.ofParts? d (half * 12 + hour) minute (min second 59) (leap + e.nano.getD 0) with
  | some m => return m
  | none => throw .wrong

/-- The moment that the evidence gives, at a distance from the zone of its time stamp. -/
def moment (e : Evidence) (zone : Int) : Except Gap Moment :=
  let date := e.date
  let time := e.time (date.toOption.getD ⟨0⟩)
  match date, time with
  | .ok _, .ok m =>
    let t := m.timestamp - zone
    if e.timestamp.all fun s => s = t || (giga ≤ m.nano && s = t + 1) then .ok m
    else .error .wrong
  | d, t =>
    match e.timestamp with
    | none => .error (match d with | .error g => g | .ok _ => .missing)
    | some stamp =>
      let isWrong {α : Type} : Except Gap α → Bool := fun
        | .error .wrong => true
        | _ => false
      if isWrong d || isWrong t then .error .wrong
      else match Moment.ofTimestamp? (stamp + zone) 0 with
        | none => .error .wrong
        | some m => fromStamp e m
where
  /-- The moment of a time stamp, if all other evidence agrees with it.  In a leap second the stamp
  may be that of the second after it. -/
  fromStamp (e : Evidence) (m : Moment) : Except Gap Moment := do
    let isLeap := e.second = some 60
    if isLeap ∧ m.secondOfMinute ≠ 59 ∧ m.secondOfMinute ≠ 0 then throw .wrong
    let m := if isLeap ∧ m.secondOfMinute = 0 then m.minusSeconds 1 else m
    let filled : Option Evidence := do
      let second ← if isLeap then some e.second else enter e.second m.secondOfMinute
      let year ← enterYear e.year m.date.year
      let dayOfYear ← enter e.dayOfYear m.date.ordinal
      let e' ← { e with second, year, dayOfYear }.withHour m.hour
      let minute ← enter e'.minute m.minute
      return { e' with minute }
    match filled with
    | none => throw .wrong
    | some e' => e'.time (← e'.date)

end Evidence

end ColumnTree.Calendar
