/-
# Reading moments

`Moment.read?` reads a whole text by a template.  Blanks in the template match any blanks, also
none, and blanks before a number are skipped.  A number takes as many digits as its width allows; a
year may have a sign and then any number of digits.  Names are read in any mix of cases, long names
also in their first three letters where the template asks for the long form.

`Moment.ofInternet?` reads the internet standard's form, `2024-05-17T01:02:03.5+02:00`, and gives
the moment in the zone of Greenwich.
-/
import ColumnTree.Calendar.Evidence
import ColumnTree.Calendar.Printer

namespace ColumnTree.Calendar

/-! ## Reading from the front of a text

Each of these gives what it reads and the text after it. -/

namespace Front

/-- A number of at least `least` and at most `most` digits; it must fit 63 bits. -/
def number (least most : Nat) (s : List Char) : Option (Nat × List Char) :=
  let ds := (s.takeWhile Char.isDigit).take most
  let n := ds.foldl (fun n c => 10 * n + (c.toNat - '0'.toNat)) 0
  if ds.length < least ∨ twoTo 63 ≤ n then none else some (n, s.drop ds.length)

/-- A number of any length. -/
def anyNumber (s : List Char) : Option (Nat × List Char) :=
  number 1 s.length s

/-- A number after its sign, or one of at most `width` digits. -/
def signedNumber (width : Nat) : List Char → Option (Int × List Char)
  | '-' :: r => (anyNumber r).map fun (n, r) => (-(n : Int), r)
  | '+' :: r => (anyNumber r).map fun (n, r) => ((n : Int), r)
  | r => (number 1 width r).map fun (n, r) => ((n : Int), r)

/-- A fraction of a second in nanoseconds; digits after the ninth are dropped. -/
def fraction (s : List Char) : Option (Nat × List Char) :=
  let ds := s.takeWhile Char.isDigit
  (number 1 9 s).map fun (n, _) => (n * tenTo (9 - min 9 ds.length), s.drop ds.length)

/-- A fraction of a second in exactly so many digits. -/
def fractionOf (count : Nat) (s : List Char) : Option (Nat × List Char) :=
  (number count count s).map fun (n, r) => (n * tenTo (9 - count), r)

/-- The text after a character that must come first. -/
def after (c : Char) : List Char → Option (List Char)
  | d :: r => if d = c then some r else none
  | [] => none

/-- Letters of ASCII compared without case. -/
def sameLetters (a b : List Char) : Bool :=
  a.map Char.toLower == b.map Char.toLower

/-- The index of the name whose first three letters come first, and the rest of that name. -/
def shortName (names : List String) (s : List Char) : Option ((Nat × List Char) × List Char) :=
  let index := names.findIdx fun n => sameLetters (n.toList.take 3) (s.take 3)
  if h : index < names.length then some ((index, names[index].toList.drop 3), s.drop 3) else none

/-- The index of a name, in full or in its first three letters. -/
def longName (names : List String) (s : List Char) : Option (Nat × List Char) :=
  (shortName names s).map fun ((index, suffix), r) =>
    (index, if sameLetters (r.take suffix.length) suffix then r.drop suffix.length else r)

/-- `am` or `pm`; 1 for the latter. -/
def meridiem : List Char → Option (Nat × List Char)
  | a :: b :: r =>
    if sameLetters [a, b] ['a', 'm'] then some (0, r)
    else if sameLetters [a, b] ['p', 'm'] then some (1, r)
    else none
  | _ => none

/-- A zone's distance from Greenwich in seconds: sign, two digits of hours and two of minutes, with
what `separator` reads between them. -/
def zone (separator : List Char → Option (List Char)) (zulu missingMinutes : Bool)
    (s : List Char) : Option (Int × List Char) :=
  match s with
  | [] => none
  | c :: r =>
    if zulu && (c = 'Z' || c = 'z') then some (0, r)
    else if c = '+' || c = '-' || c = '\u2212' then do
      let (hours, r) ← number 2 2 r
      let r ← separator r
      let (minutes, r) ←
        if (r.takeWhile fun c => c.toNat < 0x80).length < 2 && r.length < 2 then
          if missingMinutes && r.isEmpty then some (0, r) else none
        else number 2 2 r
      if 59 < minutes then none
      else
        let d : Int := hours * 3600 + minutes * 60
        return (if c = '+' then d else -d, r)
    else none

/-- Any colons and blanks. -/
def looseSeparator (s : List Char) : Option (List Char) :=
  some (s.dropWhile fun c => c = ':' || Text.isBlank c)

end Front

namespace Evidence

/-- Enters a number that a template asked for. -/
def withFigure (e : Evidence) (f : Figure) (n : Int) : Option Evidence :=
  let k := n.toNat
  match f with
  | .year => (enterYear e.year n).map ({ e with year := · })
  | .century => (enter e.century k).map ({ e with century := · })
  | .yearOfCentury => (enter e.yearOfCentury k).map ({ e with yearOfCentury := · })
  | .isoYear => (enterYear e.isoYear n).map ({ e with isoYear := · })
  | .isoYearOfCentury => (enter e.isoYearOfCentury k).map ({ e with isoYearOfCentury := · })
  | .quarter => (enterWithin 1 4 e.quarter k).map ({ e with quarter := · })
  | .month => (enterWithin 1 12 e.month k).map ({ e with month := · })
  | .day => (enterWithin 1 31 e.day k).map ({ e with day := · })
  | .weekFromSunday => (enterWithin 0 53 e.weekFromSunday k).map ({ e with weekFromSunday := · })
  | .weekFromMonday => (enterWithin 0 53 e.weekFromMonday k).map ({ e with weekFromMonday := · })
  | .isoWeek => (enterWithin 1 53 e.isoWeek k).map ({ e with isoWeek := · })
  | .weekdayFromSunday =>
    if k ≤ 6 then (enter e.weekday ((k + 6) % 7)).map ({ e with weekday := · }) else none
  | .weekdayFromMonday =>
    if 1 ≤ k ∧ k ≤ 7 then (enter e.weekday (k - 1)).map ({ e with weekday := · }) else none
  | .dayOfYear => (enterWithin 1 366 e.dayOfYear k).map ({ e with dayOfYear := · })
  | .hour => if k < 24 then e.withHour k else none
  | .hour12 =>
    if 1 ≤ k ∧ k ≤ 12 then (enter e.hourOfHalf (k % 12)).map ({ e with hourOfHalf := · }) else none
  | .minute => (enterWithin 0 59 e.minute k).map ({ e with minute := · })
  | .second => (enterWithin 0 60 e.second k).map ({ e with second := · })
  | .nanosecond => (enterWithin 0 999999999 e.nano k).map ({ e with nano := · })
  | .timestamp => (enter e.timestamp n).map ({ e with timestamp := · })

/-- The most digits of a number without sign. -/
def widthOf : Figure → Option Nat
  | .year | .isoYear => some 4
  | .quarter | .weekdayFromSunday | .weekdayFromMonday => some 1
  | .dayOfYear => some 3
  | .nanosecond => some 9
  | .timestamp => none
  | _ => some 2

/-- Reads a number that a template asks for. -/
def readFigure (e : Evidence) (f : Figure) (s : List Char) : Option (Evidence × List Char) := do
  let s := Text.trimStart s
  let (n, r) ← match f with
    | .year | .isoYear => Front.signedNumber 4 s
    | _ => (Front.number 1 ((widthOf f).getD s.length) s).map fun (n, r) => ((n : Int), r)
  return (← e.withFigure f n, r)

/-- Enters a fraction of a second. -/
def withNano (e : Evidence) (n : Nat) : Option Evidence :=
  (enter e.nano n).map ({ e with nano := · })

/-- Enters a zone's distance. -/
def withZone (e : Evidence) (d : Int) : Option Evidence :=
  (enter e.zone d).map ({ e with zone := · })

/-- Reads figures with a literal character after each. -/
def readList (e : Evidence) (s : List Char) :
    List (Figure × Option Char) → Option (Evidence × List Char)
  | [] => some (e, s)
  | (f, c) :: rest => do
    let (e, s) ← e.readFigure f s
    match c with
    | some c => readList e (← Front.after c (Text.trimStart s)) rest
    | none => readList e s rest

/-- The character between date and time. -/
def dateTimeMark : List Char → Option (List Char)
  | c :: r => if c = 'T' || c = 't' || c = ' ' then some r else none
  | [] => none

/-- A fraction of a second after its point, if there is one. -/
def readFraction (e : Evidence) : List Char → Option (Evidence × List Char)
  | '.' :: r => do
    let (n, r) ← Front.fraction r
    return (← e.withNano n, r)
  | r => some (e, r)

/-- Reads date, time and zone, with some freedom in blanks and in the zone. -/
def readInternet (e : Evidence) (s : List Char) : Option (Evidence × List Char) := do
  let (e, s) ← e.readList s [(.year, some '-'), (.month, some '-'), (.day, none)]
  let s ← dateTimeMark s
  let (e, s) ← e.readList s [(.hour, some ':'), (.minute, some ':'), (.second, none)]
  let (e, s) ← e.readFraction s
  let s := Text.trimStart s
  let (d, s) ←
    if Front.sameLetters (s.take 3) ['u', 't', 'c'] then some (0, s.drop 3)
    else Front.zone Front.looseSeparator true false s
  return (← e.withZone d, s)

/-- Reads a part that is no plain number. -/
def readPart (e : Evidence) (p : Part) (s : List Char) : Option (Evidence × List Char) :=
  match p with
  | .shortMonth => do
    let ((i, _), r) ← Front.shortName monthNames s
    return ((← e.withFigure .month (i + 1)), r)
  | .longMonth => do
    let (i, r) ← Front.longName monthNames s
    return ((← e.withFigure .month (i + 1)), r)
  | .shortWeekday => do
    let ((i, _), r) ← Front.shortName weekdayNames s
    return ((← e.withFigure .weekdayFromMonday (i + 1)), r)
  | .longWeekday => do
    let (i, r) ← Front.longName weekdayNames s
    return ((← e.withFigure .weekdayFromMonday (i + 1)), r)
  | .lowerMeridiem | .upperMeridiem => do
    let (h, r) ← Front.meridiem s
    return ({ e with half := ← enter e.half h }, r)
  | .fraction => e.readFraction s
  | .digits count true =>
    match s with
    | '.' :: r => do
      let (n, r) ← Front.fractionOf count r
      return (← e.withNano n, r)
    | _ => some (e, s)
  | .digits count false => do
    let (n, r) ← Front.fractionOf count s
    return (← e.withNano n, r)
  | .zoneName => some (e, s.dropWhile fun c => !Text.isBlank c)
  | .zoneOffset lax => do
    let (d, r) ← Front.zone Front.looseSeparator lax lax (Text.trimStart s)
    return (← e.withZone d, r)
  | .internet => e.readInternet s

/-- Reads one item of a template. -/
def readItem (e : Evidence) (i : Item) (s : List Char) : Option (Evidence × List Char) :=
  match i with
  | .literal t => if t.isPrefixOf s then some (e, s.drop t.length) else none
  | .blank _ => some (e, Text.trimStart s)
  | .figure _ f => e.readFigure f s
  | .part p => e.readPart p s
  | .invalid => none

/-- Reads a whole text by the items of a template. -/
def readItems (e : Evidence) (s : List Char) : List Item → Option Evidence
  | [] => if s.isEmpty then some e else none
  | i :: rest => do
    let (e, s) ← e.readItem i s
    readItems e s rest

end Evidence

/-- The evidence that a text gives by a template. -/
def evidence? (template s : List Char) : Option Evidence :=
  Evidence.readItems {} s (Template.items template)

namespace Moment

/-- The moment that a text gives by a template with date and time; a zone is read past. -/
def read? (template s : List Char) : Option Moment := do
  ((← evidence? template s).moment 0).toOption

/-- The date that a text gives by a template. -/
def readDate? (template s : List Char) : Option Date := do
  ((← evidence? template s).date).toOption

/-- Reads the strict form of the internet standard. -/
def internetEvidence (s : List Char) : Option (Evidence × List Char) := do
  let fixed := fun (e : Evidence) (f : Figure) (width : Nat) (s : List Char) => do
    let (n, r) ← Front.number width width s
    return ((← e.withFigure f n), r)
  let (e, s) ← fixed {} .year 4 s
  let (e, s) ← fixed e .month 2 (← Front.after '-' s)
  let (e, s) ← fixed e .day 2 (← Front.after '-' s)
  let (e, s) ← fixed e .hour 2 (← Evidence.dateTimeMark s)
  let (e, s) ← fixed e .minute 2 (← Front.after ':' s)
  let (e, s) ← fixed e .second 2 (← Front.after ':' s)
  let (e, s) ← e.readFraction s
  let (d, s) ← Front.zone (Front.after ':') true false s
  if 86400 ≤ d.natAbs then none else return (← e.withZone d, s)

/-- The moment in Greenwich that a text in the form of the internet standard gives. -/
def ofInternet? (s : List Char) : Option Moment := do
  let (e, r) ← internetEvidence s
  if r.isEmpty then
    let zone := e.zone.getD 0
    return (← (e.moment zone).toOption).minusSeconds zone
  else none

end Moment

end ColumnTree.Calendar
