/-
# Writing JSON

Compact text.  In a string the quote, the backslash and the controls below U+0020 are escaped, five
of these by a letter and the rest by four hexadecimal digits; all else stands for itself.  A double
is written with the fewest digits that read back, positionally up to sixteen digits before the
point and five zeros after it, and a whole one keeps the fraction `.0`.
-/
import ColumnTree.Decimal.Layout
import ColumnTree.Json.Basic

namespace ColumnTree.Json

/-- A digit in base 16. -/
def hexDigit (n : Nat) : Char :=
  Nat.digitChar (n % 16)

/-- One character inside a string. -/
def escape (c : Char) : List Char :=
  match c with
  | '"' => ['\\', '"']
  | '\\' => ['\\', '\\']
  | '\n' => ['\\', 'n']
  | '\r' => ['\\', 'r']
  | '\t' => ['\\', 't']
  | '\x08' => ['\\', 'b']
  | '\x0c' => ['\\', 'f']
  | c =>
    if c.toNat < 0x20 then
      ['\\', 'u', '0', '0', hexDigit (c.toNat / 16), hexDigit c.toNat]
    else [c]

/-- A string with its quotes. -/
def quoted (s : List Char) : List Char :=
  '"' :: s.flatMap escape ++ ['"']

/-- A string with its quotes, as a `String`. -/
def quote (s : String) : String :=
  String.ofList (quoted s.toList)

/-- How doubles are set out. -/
def layout : Decimal.Layout :=
  ⟨fun point => -5 < point && point ≤ 16, ['.', '0'], .even⟩

/-- The text of a double; those that are not finite have none but `null`. -/
def writeFloat (x : Float) : List Char :=
  Decimal.writeFloat layout (fun _ => "null".toList) x

mutual

/-- The text of a value. -/
def write : Json → List Char
  | null => "null".toList
  | bool b => (toString b).toList
  | int n => (toString n).toList
  | float x => writeFloat x
  | str s => quoted s.toList
  | arr [] => ['[', ']']
  | arr (j :: rest) => '[' :: write j ++ writeItems rest
  | obj [] => ['\x7b', '\x7d']
  | obj ((k, j) :: rest) => '\x7b' :: quoted k.toList ++ ':' :: write j ++ writeFields rest

/-- The items after the first, and the closing bracket. -/
def writeItems : List Json → List Char
  | [] => [']']
  | j :: rest => ',' :: write j ++ writeItems rest

/-- The fields after the first, and the closing brace. -/
def writeFields : List (String × Json) → List Char
  | [] => ['\x7d']
  | (k, j) :: rest => ',' :: quoted k.toList ++ ':' :: write j ++ writeFields rest

end

/-- The text of a value, as a `String`. -/
def render (j : Json) : String :=
  String.ofList (write j)

end ColumnTree.Json
