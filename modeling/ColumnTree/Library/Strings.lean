/-
# Functions of texts

Positions and lengths count characters.  Arguments that are no texts are taken as their texts, so
that all of these functions take any cells.
-/
import ColumnTree.Library.Basic

namespace ColumnTree.Library.Strings

/-- A text as a cell. -/
def cell (s : List Char) : Cell :=
  .text (String.ofList s)

/-- The number of a count. -/
def count (n : Nat) : Cell :=
  .number n.toFloat

/-- The longest beginning that is a number, of at most so many characters. -/
def numberPrefix (s : List Char) : Nat → Option Float
  | 0 => none
  | n + 1 =>
    match Decimal.read? (s.take (n + 1)) with
    | some x => some x
    | none => numberPrefix s n

/-- The number that a text begins with, after blanks. -/
def parseFloat (s : List Char) : Float :=
  let t := Text.trimStart s
  (numberPrefix t t.length).getD notANumber

/-- The value of a digit in a base up to 36, letters counting on from ten. -/
def digit? (base : Nat) (c : Char) : Option Nat :=
  let n := c.toNat
  let value :=
    if '0' ≤ c ∧ c ≤ '9' then some (n - '0'.toNat)
    else if 'a' ≤ c ∧ c ≤ 'z' then some (n - 'a'.toNat + 10)
    else if 'A' ≤ c ∧ c ≤ 'Z' then some (n - 'A'.toNat + 10)
    else none
  value.filter (· < base)

/-- The digits that a text begins with. -/
def leadingDigits (base : Nat) : List Char → List Nat
  | [] => []
  | c :: rest =>
    match digit? base c with
    | some d => d :: leadingDigits base rest
    | none => []

/-- The integer that a text begins with, after an optional sign, if it has digits and is below
`2 ^ 63`. -/
def parseInt (s : List Char) (base : Nat) : Float :=
  if base < 2 ∨ 36 < base then notANumber
  else
    let (negative, s) := match Text.trim s with
      | '-' :: r => (true, r)
      | '+' :: r => (false, r)
      | r => (false, r)
    let digits := leadingDigits base s
    let n := digits.foldl (fun n d => n * base + d) 0
    if digits.isEmpty || twoTo 63 ≤ n then notANumber
    else if negative then -n.toFloat else n.toFloat

/-- The number of items of a list or of characters of a text. -/
def length : Cell → Cell
  | .list items => count items.length
  | .null => .null
  | c => count c.toText.length

/-- A bound of a substring: a whole number from zero to the length, zero for what is not finite. -/
def bound (length : Nat) (c : Cell) : Nat :=
  min ((Decimal.toWord? c.toNumber).getD 0).toNat length

/-- The characters between two places, whichever comes first. -/
def between (s : List Char) (i j : Nat) : List Char :=
  (s.drop (min i j)).take (max i j - min i j)

/-- The characters between two bounds; without the second one, up to the end. -/
def substring (args : List Cell) : Cell :=
  let s := Argument.text args 0
  cell (between s (bound s.length (Argument.cell args 1))
    (Argument.orDefault args 2 s.length (bound s.length)))

/-- The place of the first occurrence, or -1. -/
def indexOf (args : List Cell) : Cell :=
  match Text.indexOf? (Argument.text args 1) (Argument.text args 0) with
  | some i => count i
  | none => .number (-1.0)

/-- The first `n` characters of a text repeated without end, which must not be empty. -/
def cycle (fill : List Char) (n : Nat) : List Char :=
  (List.replicate (n / fill.length + 1) fill).flatten.take n

/-- What fills a text up to a width: by default blanks. -/
def padding (args : List Cell) : List Char :=
  let missing := ((Argument.integer? args 1).getD 0).toNat - (Argument.text args 0).length
  let fill := Argument.orDefault args 2 [' '] (·.toText.toList)
  if fill.isEmpty then [] else cycle fill missing

/-- A text so many times. -/
def repeated (s : List Char) (n : Nat) : List Char :=
  (List.replicate n s).flatten

/-- The pieces of a text between separators, up to a limit. -/
def split (args : List Cell) : Cell :=
  let pieces := Text.pieces (Argument.text args 1) (Argument.text args 0)
  let limit := Argument.orDefault args 2 pieces.length fun _ =>
    ((Argument.integer? args 2).getD 0).toNat
  .list ((pieces.take limit).map cell)

/-- The items of a list with a separator between them, by default a comma. -/
def join (args : List Cell) : Cell :=
  match Argument.cell args 0 with
  | .list items =>
    let sep := Argument.orDefault args 1 [','] (·.toText.toList)
    cell (Text.join sep (items.map (·.toText.toList)))
  | c => .text c.toText

/-- The text with its first character in upper case. -/
def capitalize : List Char → List Char
  | [] => []
  | c :: rest => Text.upperChar c ++ rest

/-- A function from a text to a text. -/
def ofText (name description : String) (f : List Char → List Char) : Routine :=
  ⟨name, [1], name ++ "(s)", description, .string, fun args => cell (f (Argument.text args 0))⟩

/-- A test of two texts. -/
def test (name usage description : String) (p : List Char → List Char → Bool) : Routine :=
  ⟨name, [2], usage, description, .string, fun args =>
    .bool (p (Argument.text args 0) (Argument.text args 1))⟩

/-- The functions of texts, but for those with patterns. -/
def routines : List Routine := [
  ofText "capitalize" "Upper-case the first character" capitalize,
  test "endswith" "endswith(s, suffix)" "True when s ends with suffix" fun s t => t.isSuffixOf s,
  test "includes" "includes(s, needle)" "True when s contains needle" fun s t => Text.occurs t s,
  ⟨"index_of", [2], "index_of(s, needle)", "Character position of needle in s, -1 when absent",
    .string, indexOf⟩,
  ⟨"join", [1, 2], "join(list, sep?)", "Join list items with a separator (default ',')", .string,
    join⟩,
  ⟨"length", [1], "length(s)", "Number of characters (or list items)", .string, fun args =>
    length (Argument.cell args 0)⟩,
  ofText "lower" "Lower-case text" Text.lower,
  ⟨"padend", [2, 3], "padend(s, width, fill?)", "Pad s on the right to width", .string, fun args =>
    cell (Argument.text args 0 ++ padding args)⟩,
  ⟨"padstart", [2, 3], "padstart(s, width, fill?)", "Pad s on the left to width", .string,
    fun args => cell (padding args ++ Argument.text args 0)⟩,
  ⟨"parse_float", [1], "parse_float(s)", "Leading floating point number of s", .string, fun args =>
    .number (parseFloat (Argument.text args 0))⟩,
  ⟨"parse_int", [1, 2], "parse_int(s, radix?)", "Leading integer of s in the given radix", .string,
    fun args => .number (parseInt (Argument.text args 0)
      (Argument.orDefault args 1 10 fun c => Decimal.toUnsigned 32 c.toNumber))⟩,
  ⟨"repeat", [2], "repeat(s, count)", "s repeated count times", .string, fun args =>
    cell (repeated (Argument.text args 0) ((Argument.integer? args 1).getD 0).toNat)⟩,
  ⟨"replace", [3], "replace(s, from, to)", "Replace the first occurrence of from", .string,
    fun args => cell (Text.replaceFirst (Argument.text args 1) (Argument.text args 2)
      (Argument.text args 0))⟩,
  ofText "reverse" "Characters of s in reverse order" List.reverse,
  ⟨"split", [2, 3], "split(s, sep, limit?)", "Split s into a list", .string, split⟩,
  test "startswith" "startswith(s, prefix)" "True when s starts with prefix" fun s t =>
    t.isPrefixOf s,
  ⟨"string", [1], "string(x)", "Text form of any value", .string, fun args =>
    .text (Argument.cell args 0).toText⟩,
  ⟨"substring", [2, 3], "substring(s, start, end?)", "Characters from start up to end", .string,
    substring⟩,
  ofText "trim" "Strip surrounding whitespace" Text.trim,
  ofText "upper" "Upper-case text" Text.upper]

end ColumnTree.Library.Strings
