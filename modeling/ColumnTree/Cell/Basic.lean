/-
# Cells

The cells of a table are loosely typed.  Every cell has a view as a number and as a text, some as a
date.  Arithmetic goes by numbers, except that `+` joins texts as soon as one side is a text.
Comparisons go by numbers unless both sides are texts or both are dates.
-/
import ColumnTree.Calendar.Printer
import ColumnTree.Calendar.Reader
import ColumnTree.Decimal.Layout
import ColumnTree.Decimal.Reader
import ColumnTree.Text.Blank

namespace ColumnTree

open Calendar (Moment)

/-- A value in a table. -/
inductive Cell where
  /-- Nothing. -/
  | null
  /-- A truth value. -/
  | bool (b : Bool)
  /-- A number. -/
  | number (x : Float)
  /-- A text. -/
  | text (s : String)
  /-- A date with a time of day. -/
  | date (m : Moment)
  /-- A list of cells. -/
  | list (items : List Cell)
deriving Inhabited

/-- A row of a table: the cell of each column, `Cell.null` where there is none. -/
abbrev Row := String → Cell

/-- Not a number. -/
def notANumber : Float := 0.0 / 0.0

/-- The shortest text of a number, without an exponent; a zero has no sign. -/
def numberText (x : Float) : List Char :=
  if x == 0.0 then ['0']
  else
    let special : Decimal.Binary → List Char
      | .infinite true => "-Infinity".toList
      | .infinite false => "Infinity".toList
      | _ => "NaN".toList
    Decimal.writeFloat .plain special x

/-- The shortest text of a number, as a `String`. -/
def formatNumber (x : Float) : String :=
  String.ofList (numberText x)

namespace Cell

/-- The name of the type of a cell. -/
def typeName : Cell → String
  | null => "Null"
  | bool _ => "Bool"
  | number _ => "Number"
  | text _ => "Text"
  | date _ => "Date"
  | list _ => "List"

/-- Does the cell count as true? -/
def truthy : Cell → Bool
  | null => false
  | bool b => b
  | number x => x != 0.0 && !x.isNaN
  | text s => !s.isEmpty
  | date _ | list _ => true

/-! ## Views -/

/-- The number that a text holds: nothing counts as zero, and what is no number is not a number. -/
def textNumber (s : String) : Float :=
  match Text.trim s.toList with
  | [] => 0.0
  | t => (Decimal.read? t).getD notANumber

/-- The view as a number. -/
def toNumber : Cell → Float
  | null => notANumber
  | bool b => if b then 1.0 else 0.0
  | number x => x
  | text s => textNumber s
  | date m => Float.ofInt m.timestampMillis
  | list _ => notANumber

mutual

/-- The view as a text. -/
def toText : Cell → String
  | null => ""
  | bool b => if b then "true" else "false"
  | number x => formatNumber x
  | text s => s
  | date m => String.ofList m.seconds
  | list items => ",".intercalate (toTexts items)

/-- The views of several cells as texts. -/
def toTexts : List Cell → List String
  | [] => []
  | c :: rest => toText c :: toTexts rest

end

/-- The date that a text holds: date and time, the same with a zone, or a date alone. -/
def textDate? (s : String) : Option Moment :=
  let t := Text.trim s.toList
  Moment.read? "%Y-%m-%dT%H:%M:%S".toList t <|> Moment.ofInternet? t <|>
    (Moment.readDate? "%Y-%m-%d".toList t).map Moment.midnight

/-- The view as a date.  A number counts milliseconds since 1 January 1970. -/
def toDate? : Cell → Option Moment
  | date m => some m
  | number x => (Decimal.toWord? x).bind Moment.ofMillis?
  | text s => textDate? s
  | _ => none

mutual

/-- The text of a cell in which lists have brackets and nothing is `null`. -/
def display : Cell → String
  | null => "null"
  | list items => "[" ++ ", ".intercalate (displays items) ++ "]"
  | bool b => toText (bool b)
  | number x => toText (number x)
  | text s => s
  | date m => toText (date m)

/-- The texts of several cells. -/
def displays : List Cell → List String
  | [] => []
  | c :: rest => display c :: displays rest

end

/-! ## Operators -/

/-- Are both sides made the same way?  Numbers are compared as doubles, so that not a number is not
even equal to itself. -/
def strictEq : Cell → Cell → Bool
  | null, null => true
  | bool a, bool b => a == b
  | number a, number b => a == b
  | text a, text b => a == b
  | date a, date b => a == b
  | list a, list b => all a b
  | _, _ => false
where
  /-- Are two lists equal item by item? -/
  all : List Cell → List Cell → Bool
    | [], [] => true
    | a :: as, b :: bs => strictEq a b && all as bs
    | _, _ => false

/-- Equality: nothing equals nothing alone, and sides of two types are compared as numbers. -/
def looseEq : Cell → Cell → Bool
  | null, null => true
  | null, _ | _, null => false
  | text a, text b => a == b
  | date a, date b => a == b
  | list a, list b => strictEq (list a) (list b)
  | a, b => a.toNumber == b.toNumber

/-- The order of two numbers, unless one is not a number. -/
def compareNumbers? (x y : Float) : Option Ordering :=
  if x < y then some .lt else if x == y then some .eq else if y < x then some .gt else none

/-- The order of two texts, by code points. -/
def compareTexts (a b : String) : Ordering :=
  if a < b then .lt else if a == b then .eq else .gt

/-- The order of two cells, if they have one. -/
def compare? : Cell → Cell → Option Ordering
  | text a, text b => some (compareTexts a b)
  | date a, date b => some (a.compare b)
  | a, b => compareNumbers? a.toNumber b.toNumber

/-- Addition, or joining if a side is a text. -/
def add : Cell → Cell → Cell
  | text a, b => text (a ++ b.toText)
  | a, text b => text (a.toText ++ b)
  | a, b => number (a.toNumber + b.toNumber)

/-- Subtraction. -/
def sub (a b : Cell) : Cell :=
  number (a.toNumber - b.toNumber)

/-- Multiplication. -/
def mul (a b : Cell) : Cell :=
  number (a.toNumber * b.toNumber)

/-- Division. -/
def div (a b : Cell) : Cell :=
  number (a.toNumber / b.toNumber)

/-- The power. -/
def pow (a b : Cell) : Cell :=
  number (a.toNumber.pow b.toNumber)

/-- The opposite number. -/
def neg (a : Cell) : Cell :=
  number (-a.toNumber)

/-- The place in a sequence that a number means: a whole number from zero on. -/
def place? (x : Float) : Option Nat :=
  match Decimal.integer? x with
  | some n => if 0 ≤ n then some n.toNat else none
  | none => none

/-- An item of a list or a character of a text; nothing if there is none. -/
def index (target key : Cell) : Cell :=
  match place? key.toNumber, target with
  | some i, list items => items[i]?.getD null
  | some i, text s =>
    match s.toList[i]? with
    | some c => text (String.singleton c)
    | none => null
  | _, _ => null

end Cell

end ColumnTree
