/-
# Writing moments

`Moment.format?` fills in a template; it fails if an item is invalid or asks for a zone, which a
moment does not have.  `Moment.iso` is the text `YYYY-MM-DDTHH:MM:SS` with a fraction of a second
in three, six or nine digits unless it is zero.

Years from 0 to 9999 have four digits; all others have a sign as well.
-/
import ColumnTree.Calendar.Moment
import ColumnTree.Calendar.Template

namespace ColumnTree.Calendar

/-- The names of the months. -/
def monthNames : List String :=
  ["January", "February", "March", "April", "May", "June", "July", "August", "September",
    "October", "November", "December"]

/-- The names of the days of the week, from Monday. -/
def weekdayNames : List String :=
  ["Monday", "Tuesday", "Wednesday", "Thursday", "Friday", "Saturday", "Sunday"]

/-- The digits of a number, with zeros in front up to a width. -/
def padded (width n : Nat) : List Char :=
  let ds := Nat.toDigits 10 n
  List.replicate (width - ds.length) '0' ++ ds

/-- A number up to a width: zeros stand after the sign, spaces before it. -/
def fill (padding : Padding) (width : Nat) (plus : Bool) (n : Int) : List Char :=
  let sign := if n < 0 then ['-'] else if plus then ['+'] else []
  let ds := Nat.toDigits 10 n.natAbs
  let gap := width - (sign.length + ds.length)
  match padding with
  | .none => sign ++ ds
  | .zero => sign ++ List.replicate gap '0' ++ ds
  | .space => List.replicate gap ' ' ++ sign ++ ds

/-- A year: four digits, and a sign beyond them. -/
def writeYear (padding : Padding) (year : Int) : List Char :=
  if 0 ≤ year ∧ year < 10000 then fill padding 4 false year else fill padding 5 true year

/-- A number of two digits, kept in one byte.  Its tens are one character, which runs on after `9`
for a hundred and more. -/
def writeTwo (padding : Padding) (n : Int) : List Char :=
  let v := (n % 256).toNat
  let ones := Nat.digitChar (v % 10)
  if v < 10 then
    match padding with
    | .none => [ones]
    | .space => [' ', ones]
    | .zero => ['0', ones]
  else [Char.ofNat ('0'.toNat + v / 10), ones]

/-- A number that is one digit. -/
def writeOne (n : Nat) : List Char :=
  [Nat.digitChar n]

/-- A fraction of a second in three, six or nine digits, the fewest that are exact. -/
def writeFraction (nano : Nat) : List Char :=
  if nano % 1000000 = 0 then padded 3 (nano / 1000000)
  else if nano % 1000 = 0 then padded 6 (nano / 1000)
  else padded 9 nano

namespace Moment

/-- A number of a moment. -/
def writeFigure (m : Moment) (padding : Padding) : Figure → List Char
  | .year => writeYear padding m.date.year
  | .century => writeTwo padding (m.date.year.fdiv 100)
  | .yearOfCentury => writeTwo padding (m.date.year.fmod 100)
  | .isoYear => writeYear padding m.date.isoWeek.1
  | .isoYearOfCentury => writeTwo padding (m.date.isoWeek.1.fmod 100)
  | .quarter => writeOne m.date.quarter
  | .month => writeTwo padding m.date.month
  | .day => writeTwo padding m.date.day
  | .weekFromSunday => writeTwo padding (m.date.weekFrom 6)
  | .weekFromMonday => writeTwo padding (m.date.weekFrom 0)
  | .isoWeek => writeTwo padding m.date.isoWeek.2
  | .weekdayFromSunday => writeOne m.date.weekdayFromSunday
  | .weekdayFromMonday => writeOne (m.date.weekday + 1)
  | .dayOfYear => fill padding 3 false m.date.ordinal
  | .hour => writeTwo padding m.hour
  | .hour12 => writeTwo padding m.hour12
  | .minute => writeTwo padding m.minute
  | .second => writeTwo padding m.shownSecond
  | .nanosecond => fill padding 9 false m.fraction
  | .timestamp => fill padding 9 false m.timestamp

/-- Another part of a moment; zones have none. -/
def writePart? (m : Moment) : Part → Option (List Char)
  | .shortMonth => some ((monthNames.getD (m.date.month - 1) "").toList.take 3)
  | .longMonth => some (monthNames.getD (m.date.month - 1) "").toList
  | .shortWeekday => some ((weekdayNames.getD m.date.weekday "").toList.take 3)
  | .longWeekday => some (weekdayNames.getD m.date.weekday "").toList
  | .lowerMeridiem => some (if m.isAfternoon then ['p', 'm'] else ['a', 'm'])
  | .upperMeridiem => some (if m.isAfternoon then ['P', 'M'] else ['A', 'M'])
  | .fraction => some (if m.fraction = 0 then [] else '.' :: writeFraction m.fraction)
  | .digits count point =>
    some ((if point then ['.'] else []) ++ (padded 9 m.fraction).take count)
  | .zoneName | .zoneOffset _ | .internet => none

/-- One item of a template. -/
def writeItem? (m : Moment) : Item → Option (List Char)
  | .literal s | .blank s => some s
  | .figure padding f => some (m.writeFigure padding f)
  | .part p => m.writePart? p
  | .invalid => none

/-- The items of a template, one after the other. -/
def writeItems? (m : Moment) : List Item → Option (List Char)
  | [] => some []
  | i :: rest => do return (← m.writeItem? i) ++ (← m.writeItems? rest)

/-- A template with the parts of the moment filled in. -/
def format? (m : Moment) (template : List Char) : Option (List Char) :=
  m.writeItems? (Template.items template)

/-- The text `YYYY-MM-DDTHH:MM:SS`. -/
def seconds (m : Moment) : List Char :=
  writeYear .zero m.date.year ++ '-' :: padded 2 m.date.month ++ '-' :: padded 2 m.date.day ++
    'T' :: padded 2 m.hour ++ ':' :: padded 2 m.minute ++ ':' :: padded 2 m.shownSecond

/-- The text `YYYY-MM-DDTHH:MM:SS` with the fraction of a second, unless it is zero. -/
def iso (m : Moment) : List Char :=
  m.seconds ++ if m.fraction = 0 then [] else '.' :: writeFraction m.fraction

end Moment

end ColumnTree.Calendar
