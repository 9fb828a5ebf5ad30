/-
# Reading JSON

A text is one value with blanks (space, tab, line feed, carriage return) around its parts.  Values
nest at most 127 deep.  Strings hold no bare control characters, and escaped surrogates only in
pairs.

An integer that 64 bits hold is kept as it is, except that `-0` is a double.  Every other number is
a double: its digits are collected in 64 bits, those that do not fit counting as zeros before the
point and as nothing after it, and the result is scaled by one power of ten.  This is not always
the nearest double.
-/
import ColumnTree.Json.Basic

namespace ColumnTree.Json

/-- The blanks between the parts of a text. -/
def isSpace (c : Char) : Bool :=
  c == ' ' || c == '\t' || c == '\n' || c == '\r'

/-- The text after its leading blanks. -/
def skip (s : List Char) : List Char :=
  s.dropWhile isSpace

/-! ## Numbers -/

/-- The value of a decimal digit. -/
def digit (c : Char) : Nat :=
  c.toNat - '0'.toNat

/-- Appends digits to a number for as long as 64 bits hold it; what is left over is returned. -/
def collect (n : Nat) : List Char → Nat × List Char
  | [] => (n, [])
  | c :: cs =>
    let n' := 10 * n + digit c
    if n' < twoTo 64 then collect n' cs else (n, c :: cs)

/-- Division by powers of ten up to the 308th, as often as is needed. -/
def scaleDown (x : Float) : Nat → Nat → Float
  | 0, _ => 0.0
  | fuel + 1, k =>
    if k ≤ 308 then x / Float.ofScientific 1 false k
    else if x == 0.0 then x
    else scaleDown (x / Float.ofScientific 1 false 308) fuel (k - 308)

/-- The double for the digits `n` and a power of ten; an infinity if it is too large. -/
def scale (n : Nat) (exponent : Int) : Float :=
  let x := (UInt64.ofNat n).toFloat
  if exponent < 0 then scaleDown x 8 exponent.natAbs
  else if exponent ≤ 308 then x * Float.ofScientific 1 false exponent.toNat
  else if n = 0 then x
  else 1.0 / 0.0

/-- The digits after an exponent letter, with their sign. -/
def exponentPart : List Char → Option (Int × List Char)
  | s =>
    let (negative, rest) := match s with
      | '-' :: r => (true, r)
      | '+' :: r => (false, r)
      | r => (false, r)
    let ds := rest.takeWhile Char.isDigit
    if ds.isEmpty then none
    else
      let n : Int := ds.foldl (fun n c => 10 * n + digit c) 0
      some (if negative then -n else n, rest.dropWhile Char.isDigit)

/-- The double with these digits before and after the point and this exponent. -/
def decimal (whole fraction : List Char) (exponent : Int) : Float :=
  let (n, lost) := collect 0 whole
  let (n', unused) := collect n fraction
  let point : Int := (lost.length : Int) - (fraction.length - unused.length : Nat)
  if 2147483647 < exponent.natAbs then (if n' ≠ 0 ∧ 0 < exponent then 1.0 / 0.0 else 0.0)
  else scale n' (point + exponent)

/-- A number at the front of a text. -/
def number (s : List Char) : Option (Json × List Char) :=
  let (negative, s) := match s with
    | '-' :: r => (true, r)
    | r => (false, r)
  let whole := s.takeWhile Char.isDigit
  let rest := s.dropWhile Char.isDigit
  let signed := fun x : Float => float (if negative then -x else x)
  if whole.isEmpty || (whole.length != 1 && whole.head? == some '0') then none
  else
    let fraction : Option (List Char × List Char) := match rest with
      | '.' :: r =>
        if (r.takeWhile Char.isDigit).isEmpty then none
        else some (r.takeWhile Char.isDigit, r.dropWhile Char.isDigit)
      | r => some ([], r)
    match fraction with
    | none => none
    | some (fraction, rest') =>
      match rest' with
      | c :: r =>
        if c = 'e' || c = 'E' then
          (exponentPart r).map fun (e, r) => (signed (decimal whole fraction e), r)
        else some (plain negative whole fraction signed, rest')
      | [] => some (plain negative whole fraction signed, [])
where
  /-- A number without exponent. -/
  plain (negative : Bool) (whole fraction : List Char) (signed : Float → Json) : Json :=
    let n := whole.foldl (fun n c => 10 * n + digit c) 0
    if !fraction.isEmpty || twoTo 64 ≤ n || (negative && (n = 0 || twoTo 63 < n)) then
      signed (decimal whole fraction 0)
    else int (if negative then -(n : Int) else n)

/-! ## Strings -/

/-- The value of a hexadecimal digit. -/
def hexValue? (c : Char) : Option Nat :=
  if c.isDigit then some (digit c)
  else if 'a' ≤ c && c ≤ 'f' then some (c.toNat - 'a'.toNat + 10)
  else if 'A' ≤ c && c ≤ 'F' then some (c.toNat - 'A'.toNat + 10)
  else none

/-- Four hexadecimal digits. -/
def hex4 : List Char → Option (Nat × List Char)
  | a :: b :: c :: d :: rest => do
    let high := (← hexValue? a) * 16 + (← hexValue? b)
    let low := (← hexValue? c) * 16 + (← hexValue? d)
    let n := high * 256 + low
    return (n, rest)
  | _ => none

/-- The character of a `\u` escape, which is a pair of them above U+FFFF. -/
def unicodeEscape (s : List Char) : Option (Char × List Char) := do
  let (n, rest) ← hex4 s
  if 0xDC00 ≤ n && n ≤ 0xDFFF then none
  else if 0xD800 ≤ n && n ≤ 0xDBFF then
    match rest with
    | '\\' :: 'u' :: rest' =>
      let (low, rest'') ← hex4 rest'
      if 0xDC00 ≤ low && low ≤ 0xDFFF then
        return (Char.ofNat (0x10000 + (n - 0xD800) * 0x400 + (low - 0xDC00)), rest'')
      else none
    | _ => none
  else return (Char.ofNat n, rest)

/-- The rest of a string after its opening quote; `done` is what was read, last first. -/
def string (done : List Char) : Nat → List Char → Option (String × List Char)
  | 0, _ => none
  | _ + 1, [] => none
  | fuel + 1, c :: rest =>
    if c = '"' then some (String.ofList done.reverse, rest)
    else if c = '\\' then
      match rest with
      | '"' :: r => string ('"' :: done) fuel r
      | '\\' :: r => string ('\\' :: done) fuel r
      | '/' :: r => string ('/' :: done) fuel r
      | 'b' :: r => string ('\x08' :: done) fuel r
      | 'f' :: r => string ('\x0c' :: done) fuel r
      | 'n' :: r => string ('\n' :: done) fuel r
      | 'r' :: r => string ('\r' :: done) fuel r
      | 't' :: r => string ('\t' :: done) fuel r
      | 'u' :: r =>
        match unicodeEscape r with
        | some (c, r) => string (c :: done) fuel r
        | none => none
      | _ => none
    else if c.toNat < 0x20 then none
    else string (c :: done) fuel rest

/-! ## Values -/

/-- The rest of a text after a word. -/
def afterWord (word s : List Char) : Option (List Char) :=
  if word.isPrefixOf s then some (s.drop word.length) else none

mutual

/-- A value at the front of a text; `depth` levels may still be opened. -/
def value (depth : Nat) : Nat → List Char → Option (Json × List Char)
  | 0, _ => none
  | fuel + 1, s =>
    match skip s with
    | [] => none
    | c :: rest =>
      if c = '"' then (string [] fuel rest).map fun (t, r) => (str t, r)
      else if c = '[' then
        if depth ≤ 1 then none
        else match skip rest with
          | ']' :: r => some (arr [], r)
          | r => items (depth - 1) [] fuel r
      else if c = '\x7b' then
        if depth ≤ 1 then none
        else match skip rest with
          | '\x7d' :: r => some (obj [], r)
          | r => fields (depth - 1) [] fuel r
      else if c = 'n' then (afterWord "ull".toList rest).map (null, ·)
      else if c = 't' then (afterWord "rue".toList rest).map (bool true, ·)
      else if c = 'f' then (afterWord "alse".toList rest).map (bool false, ·)
      else number (c :: rest)

/-- Items up to the closing bracket; `done` are those read, last first. -/
def items (depth : Nat) (done : List Json) : Nat → List Char → Option (Json × List Char)
  | 0, _ => none
  | fuel + 1, s =>
    match value depth fuel s with
    | none => none
    | some (j, rest) =>
      match skip rest with
      | ',' :: r => items depth (j :: done) fuel r
      | ']' :: r => some (arr (j :: done).reverse, r)
      | _ => none

/-- Fields up to the closing brace; `done` are those read, last first. -/
def fields (depth : Nat) (done : List (String × Json)) :
    Nat → List Char → Option (Json × List Char)
  | 0, _ => none
  | fuel + 1, s =>
    match skip s with
    | '"' :: rest =>
      match string [] fuel rest with
      | none => none
      | some (k, rest) =>
        match skip rest with
        | ':' :: rest =>
          match value depth fuel rest with
          | none => none
          | some (j, rest) =>
            match skip rest with
            | ',' :: r => fields depth ((k, j) :: done) fuel r
            | '\x7d' :: r => some (obj ((k, j) :: done).reverse, r)
            | _ => none
        | _ => none
    | _ => none

end

/-- The value that a whole text is. -/
def parse? (s : String) : Option Json :=
  let cs := s.toList
  match value 128 (2 * cs.length + 2) cs with
  | some (j, rest) => if (skip rest).isEmpty then some j else none
  | none => none

end ColumnTree.Json
