/-
# Scanning a formula

The scanner marks every character of a formula with its offset and with whether it stands on top:
outside all brackets, text literals and attribute names.  A bracket that opens or closes the
outermost group is on top itself.  The text between `$(` and the parenthesis that matches it is a
name, in which nothing but parentheses counts.

The scanner is a machine with one step a character.  Its state is the brackets that are open and
what kind of text it is in.
-/
import ColumnTree.Formula.Fault

namespace ColumnTree.Formula

/-- A character of a formula as the scanner saw it. -/
structure Mark where
  /-- The offset in bytes. -/
  offset : Nat
  /-- The character. -/
  char : Char
  /-- Does it stand outside all brackets, texts and names? -/
  top : Bool
deriving DecidableEq, Repr

/-- The kind of text that the scanner is in. -/
inductive ScanMode where
  /-- Plain formula text; `dollar` if the last character was a dollar sign. -/
  | plain (dollar : Bool)
  /-- A text literal; `escaped` if the last character was a backslash that counts. -/
  | quoted (quote : Char) (escaped : Bool)
  /-- An attribute name, in which so many parentheses are open. -/
  | name (depth : Nat)
deriving DecidableEq, Repr

/-- The state of the scanner. -/
structure ScanState where
  /-- The kind of text. -/
  mode : ScanMode
  /-- The open brackets, the innermost first. -/
  stack : List Char
deriving DecidableEq, Repr

/-- The opening bracket for a closing one. -/
def opening (c : Char) : Char :=
  if c = ')' then '(' else '['

namespace ScanState

/-- The state before the first character. -/
def start : ScanState := ⟨.plain false, []⟩

/-- One character in plain formula text. -/
def stepPlain (stack : List Char) (dollar : Bool) (offset : Nat) (c : Char) :
    Except SyntaxFault (ScanState × Bool) :=
  if dollar && c == '(' then .ok (⟨.name 1, stack⟩, stack.isEmpty)
  else if c == '"' || c == '\'' then .ok (⟨.quoted c false, stack⟩, false)
  else if c == '(' || c == '[' then .ok (⟨.plain false, c :: stack⟩, stack.isEmpty)
  else if c == ')' || c == ']' then
    match stack with
    | b :: rest =>
      if b = opening c then .ok (⟨.plain false, rest⟩, rest.isEmpty)
      else .error (.unbalanced c offset)
    | [] => .error (.unbalanced c offset)
  else .ok (⟨.plain (c == '$'), stack⟩, stack.isEmpty)

/-- One character: the state after it, and whether it stands on top. -/
def step (s : ScanState) (offset : Nat) (c : Char) : Except SyntaxFault (ScanState × Bool) :=
  match s.mode with
  | .name depth =>
    let depth' := if c = '(' then depth + 1 else if c = ')' then depth - 1 else depth
    if depth' = 0 then .ok (⟨.plain false, s.stack⟩, s.stack.isEmpty)
    else .ok (⟨.name depth', s.stack⟩, false)
  | .quoted quote escaped =>
    if escaped then .ok (⟨.quoted quote false, s.stack⟩, false)
    else if c = '\\' then .ok (⟨.quoted quote true, s.stack⟩, false)
    else if c = quote then .ok (⟨.plain false, s.stack⟩, false)
    else .ok (⟨.quoted quote false, s.stack⟩, false)
  | .plain dollar => stepPlain s.stack dollar offset c

/-- A text must not end inside a name, a text literal or a bracket. -/
def finish (s : ScanState) : Except SyntaxFault Unit :=
  match s.mode, s.stack with
  | .name _, _ => .error .openReference
  | .quoted .., _ => .error .openText
  | .plain _, b :: _ => .error (.openBracket b)
  | .plain _, [] => .ok ()

end ScanState

/-- The marks of a text that begins at an offset, scanned from a state. -/
def scanFrom (s : ScanState) (offset : Nat) : List Char → Except SyntaxFault (List Mark)
  | [] => do
    s.finish
    return []
  | c :: rest => do
    let (s', top) ← s.step offset c
    return ⟨offset, c, top⟩ :: (← scanFrom s' (offset + c.utf8Size) rest)

/-- The marks of a text. -/
def scan (text : List Char) : Except SyntaxFault (List Mark) :=
  scanFrom .start 0 text

/-- The text that marks stand for. -/
def textOf (marks : List Mark) : List Char :=
  marks.map (·.char)

end ColumnTree.Formula
