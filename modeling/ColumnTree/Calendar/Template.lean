/-
# Templates for dates

A template is a text in which a percent sign and a letter stand for a part of a moment, such as
`%Y-%m-%d`.  It is read into items: numbers with their padding, names and other fixed parts,
stretches of blanks, and literal text.  Some letters stand for several items.  What is no field
becomes the item `invalid`, which can be neither written nor read.

Between the percent sign and the letter of a number, `-` asks for no padding, `0` for zeros and `_`
for spaces.
-/
import ColumnTree.Text.Blank

namespace ColumnTree.Calendar

/-- How a number is filled up to its width. -/
inductive Padding where
  | none
  | zero
  | space
deriving DecidableEq, Repr

/-- The numbers of a moment. -/
inductive Figure where
  | year
  | century
  | yearOfCentury
  | isoYear
  | isoYearOfCentury
  | quarter
  | month
  | day
  | weekFromSunday
  | weekFromMonday
  | isoWeek
  | weekdayFromSunday
  | weekdayFromMonday
  | dayOfYear
  | hour
  | hour12
  | minute
  | second
  | nanosecond
  | timestamp
deriving DecidableEq, Repr

/-- The parts of a moment, or of a zone, that are not plain numbers. -/
inductive Part where
  | shortMonth
  | longMonth
  | shortWeekday
  | longWeekday
  | lowerMeridiem
  | upperMeridiem
  /-- The fraction of a second with its point, in as many digits as it needs. -/
  | fraction
  /-- The fraction of a second in so many digits, with or without a point. -/
  | digits (count : Nat) (point : Bool)
  | zoneName
  /-- A zone's distance; `lax` allows a lone `Z` and missing minutes. -/
  | zoneOffset (lax : Bool)
  /-- Date, time and zone as the internet standard writes them. -/
  | internet
deriving DecidableEq, Repr

/-- One item of a template. -/
inductive Item where
  | literal (text : List Char)
  | blank (text : List Char)
  | figure (padding : Padding) (f : Figure)
  | part (p : Part)
  | invalid
deriving DecidableEq, Repr

namespace Template

/-- A number padded with zeros. -/
def zeros (f : Figure) : Item := .figure .zero f

/-- A number padded with spaces. -/
def spaces (f : Figure) : Item := .figure .space f

/-- A literal character. -/
def mark (c : Char) : Item := .literal [c]

/-- `month/day/year of century`. -/
def shortDate : List Item :=
  [zeros .month, mark '/', zeros .day, mark '/', zeros .yearOfCentury]

/-- `hour:minute:second`. -/
def clock : List Item :=
  [zeros .hour, mark ':', zeros .minute, mark ':', zeros .second]

/-- The items that a letter stands for. -/
def ofLetter : Char → List Item
  | 'A' => [.part .longWeekday]
  | 'B' => [.part .longMonth]
  | 'C' => [zeros .century]
  | 'D' => shortDate
  | 'F' => [zeros .year, mark '-', zeros .month, mark '-', zeros .day]
  | 'G' => [zeros .isoYear]
  | 'H' => [zeros .hour]
  | 'I' => [zeros .hour12]
  | 'M' => [zeros .minute]
  | 'P' => [.part .lowerMeridiem]
  | 'R' => [zeros .hour, mark ':', zeros .minute]
  | 'S' => [zeros .second]
  | 'T' => clock
  | 'U' => [zeros .weekFromSunday]
  | 'V' => [zeros .isoWeek]
  | 'W' => [zeros .weekFromMonday]
  | 'X' => clock
  | 'Y' => [zeros .year]
  | 'Z' => [.part .zoneName]
  | 'a' => [.part .shortWeekday]
  | 'b' => [.part .shortMonth]
  | 'c' =>
    [.part .shortWeekday, .blank [' '], .part .shortMonth, .blank [' '], spaces .day,
      .blank [' ']] ++ clock ++ [.blank [' '], zeros .year]
  | 'd' => [zeros .day]
  | 'e' => [spaces .day]
  | 'f' => [zeros .nanosecond]
  | 'g' => [zeros .isoYearOfCentury]
  | 'h' => [.part .shortMonth]
  | 'j' => [zeros .dayOfYear]
  | 'k' => [spaces .hour]
  | 'l' => [spaces .hour12]
  | 'm' => [zeros .month]
  | 'n' => [.blank ['\n']]
  | 'p' => [.part .upperMeridiem]
  | 'q' => [.figure .none .quarter]
  | 'r' =>
    [zeros .hour12, mark ':', zeros .minute, mark ':', zeros .second, .blank [' '],
      .part .upperMeridiem]
  | 's' => [.figure .none .timestamp]
  | 't' => [.blank ['\t']]
  | 'u' => [.figure .none .weekdayFromMonday]
  | 'v' => [spaces .day, mark '-', .part .shortMonth, mark '-', zeros .year]
  | 'w' => [.figure .none .weekdayFromSunday]
  | 'x' => shortDate
  | 'y' => [zeros .yearOfCentury]
  | 'z' => [.part (.zoneOffset false)]
  | '+' => [.part .internet]
  | '%' => [mark '%']
  | _ => [.invalid]

/-- The items for a number with a padding of its own; only a single number can have one. -/
def withPadding (padding : Padding) : List Item → List Item
  | [.figure _ f] => [.figure padding f]
  | _ => [.invalid]

/-- The items for the text after a percent sign, without padding, and the text after them. -/
def specifier : List Char → List Item × List Char
  | ':' :: ':' :: ':' :: 'z' :: r => ([.part (.zoneOffset false)], r)
  | ':' :: ':' :: 'z' :: r => ([.part (.zoneOffset false)], r)
  | ':' :: 'z' :: r => ([.part (.zoneOffset false)], r)
  | '.' :: '3' :: 'f' :: r => ([.part (.digits 3 true)], r)
  | '.' :: '6' :: 'f' :: r => ([.part (.digits 6 true)], r)
  | '.' :: '9' :: 'f' :: r => ([.part (.digits 9 true)], r)
  | '.' :: 'f' :: r => ([.part .fraction], r)
  | '3' :: 'f' :: r => ([.part (.digits 3 false)], r)
  | '6' :: 'f' :: r => ([.part (.digits 6 false)], r)
  | '9' :: 'f' :: r => ([.part (.digits 9 false)], r)
  | c :: r => (ofLetter c, r)
  | [] => ([.invalid], [])

/-- The items for the text after a percent sign, and the text after them. -/
def field : List Char → List Item × List Char
  | '-' :: r => let (items, r') := specifier r; (withPadding .none items, r')
  | '0' :: r => let (items, r') := specifier r; (withPadding .zero items, r')
  | '_' :: r => let (items, r') := specifier r; (withPadding .space items, r')
  | '#' :: 'z' :: r => ([.part (.zoneOffset true)], r)
  | '#' :: r => ([.invalid], r.drop 1)
  | r => specifier r

/-- The items of a template text; the fuel is its length. -/
def itemsOf : Nat → List Char → List Item
  | 0, _ => []
  | _ + 1, [] => []
  | fuel + 1, c :: r =>
    if c = '%' then
      let (items, r') := field r
      items ++ itemsOf fuel r'
    else if Text.isBlank c then
      .blank (c :: r.takeWhile Text.isBlank) :: itemsOf fuel (r.dropWhile Text.isBlank)
    else
      let inside := fun c => !Text.isBlank c && c != '%'
      .literal (c :: r.takeWhile inside) :: itemsOf fuel (r.dropWhile inside)

/-- The items of a template text. -/
def items (template : List Char) : List Item :=
  itemsOf template.length template

end Template

end ColumnTree.Calendar
