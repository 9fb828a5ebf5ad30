/-
# Functions of dates

Dates have no time zone.  A function whose argument has no view as a date gives nothing.  What the
time is now is a parameter, so that the functions are functions.
-/
import ColumnTree.Library.Basic

namespace ColumnTree.Library.Dates

open Calendar (Date Moment giga)

/-- A date as a cell, or nothing. -/
def cell (m : Option Moment) : Cell :=
  match m with
  | some m => .date m
  | none => .null

/-- A part of a date with a default; none if the argument is there and not finite. -/
def part? (args : List Cell) (i : Nat) (default : Int) : Option Int :=
  Argument.orDefault args i (some default) fun c => Decimal.toWord? c.toNumber

/-- A part of a date that must not be negative. -/
def naturalPart? (args : List Cell) (i : Nat) (default : Int) : Option Nat := do
  let n ← part? args i default
  if 0 ≤ n then return n.toNat else none

/-- The date with the parts given. -/
def build? (args : List Cell) : Option Moment := do
  let year ← part? args 0 1970
  let month ← naturalPart? args 1 1
  let day ← naturalPart? args 2 1
  let hour ← naturalPart? args 3 0
  let minute ← naturalPart? args 4 0
  let second ← naturalPart? args 5 0
  let milli ← naturalPart? args 6 0
  let date ← Date.ofCivil? year month day
  Moment.ofParts? date hour minute second (milli * 1000000)

/-- The date that a text gives, by a template if there is one: date and time, or a date alone. -/
def parse? (args : List Cell) : Option Moment :=
  Argument.orDefault args 1 (Argument.date? args 0) fun c =>
    let template := c.toText.toList
    let s := Text.trim (Argument.text args 0)
    Moment.read? template s <|> (Moment.readDate? template s).map Moment.midnight

/-- The text of a date by a template; nothing if the template has an invalid item. -/
def format (args : List Cell) : Cell :=
  let text? := do
    let m ← Argument.date? args 0
    Argument.orDefault args 1 (some m.seconds) fun c => m.format? c.toText.toList
  match text? with
  | some s => .text (String.ofList s)
  | none => .null

/-- A date shifted by days. -/
def addDays (args : List Cell) : Cell :=
  cell do
    let m ← Argument.date? args 0
    m.addDays? (← Argument.integer? args 1)

/-- The whole days from one date to another. -/
def daysBetween (args : List Cell) : Cell :=
  match Argument.date? args 0, Argument.date? args 1 with
  | some start, some stop => .number (Float.ofInt (start.daysTo stop))
  | _, _ => .null

/-- An integer that is read off a date. -/
def reading (name description : String) (f : Moment → Int) : Routine :=
  ⟨name, [1], name ++ "(d)", description, .date, fun args =>
    match Argument.date? args 0 with
    | some m => .number (Float.ofInt (f m))
    | none => .null⟩

/-- The functions of dates. -/
def routines (now : Moment) : List Routine := [
  ⟨"add_days", [2], "add_days(d, days)", "Shift a date by a number of days", .date, addDays⟩,
  reading "date" "Day of the month (1-31)" fun m => m.date.day,
  ⟨"datetime", [1, 2, 3, 4, 5, 6, 7],
    "datetime(year, month?, day?, hours?, minutes?, seconds?, ms?)", "Build a date from its parts",
    .date, fun args => cell (build? args)⟩,
  reading "dayofweek" "Day of the week, Sunday = 0" fun m => m.date.weekdayFromSunday,
  reading "dayofyear" "Day of the year (1-366)" fun m => m.date.ordinal,
  ⟨"days_between", [2], "days_between(from, to)", "Whole days from one date to another", .date,
    daysBetween⟩,
  ⟨"format_date", [1, 2], "format_date(d, format?)", "Render a date with a strftime format", .date,
    format⟩,
  reading "hours" "Hour of the day (0-23)" fun m => m.hour,
  reading "milliseconds" "Millisecond of the second" fun m => (m.nano / 1000000 : Nat),
  reading "minutes" "Minute of the hour" fun m => m.minute,
  reading "month" "Month of the year (1-12)" fun m => m.date.month,
  ⟨"now", [0], "now()", "Current date and time (UTC)", .date, fun _ => .date now⟩,
  ⟨"parse_date", [1, 2], "parse_date(s, format?)", "Parse text into a date", .date, fun args =>
    cell (parse? args)⟩,
  reading "quarter" "Quarter of the year (1-4)" fun m => m.date.quarter,
  reading "seconds" "Second of the minute" fun m => m.secondOfMinute,
  reading "timestamp" "Milliseconds since the Unix epoch" Moment.timestampMillis,
  reading "week" "ISO week number" fun m => m.date.isoWeek.2,
  reading "year" "Calendar year" fun m => m.date.year]

end ColumnTree.Library.Dates
