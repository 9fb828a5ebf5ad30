/-
# Replacing matches

In a replacement, `$` with a name or a number, perhaps in braces, stands for the text of a group,
and `$$` for a dollar sign.  A group that is not there or did not match has no text.  Any other `$`
stands for itself.
-/
import ColumnTree.Decimal.Reader
import ColumnTree.Pattern.Search

namespace ColumnTree.Pattern

/-- A piece of a replacement. -/
inductive Fragment where
  | literal (s : List Char)
  /-- The text of the group with this number or name. -/
  | reference (name : List Char)

/-- Is this a character of a name without braces? -/
def isReferenceChar (c : Char) : Bool :=
  c.isAlphanum || c == '_'

/-- A reference after its dollar sign. -/
def reference? (s : List Char) : Option (List Char × List Char) :=
  match s with
  | '\x7b' :: rest =>
    match rest.dropWhile (· != '\x7d') with
    | _ :: after => some (rest.takeWhile (· != '\x7d'), after)
    | [] => none
  | s =>
    let name := s.takeWhile isReferenceChar
    if name.isEmpty then none else some (name, s.dropWhile isReferenceChar)

/-- The pieces of a replacement; `fuel` bounds their number. -/
def fragments : Nat → List Char → List Fragment
  | 0, _ | _, [] => []
  | fuel + 1, '$' :: '$' :: rest => .literal ['$'] :: fragments fuel rest
  | fuel + 1, '$' :: rest =>
    match reference? rest with
    | some (name, rest) => .reference name :: fragments fuel rest
    | none => .literal ['$'] :: fragments fuel rest
  | fuel + 1, c :: rest => .literal [c] :: fragments fuel rest

/-- The number that a name is: digits after an optional plus sign, below `2 ^ 64`. -/
def groupNumber? (name : List Char) : Option Nat :=
  let digits := match name with
    | '+' :: rest => rest
    | s => s
  if digits.isEmpty || !digits.all Char.isDigit then none
  else
    let n := Decimal.ofDigits digits
    if n < twoTo 64 then some n else none

/-- The text of a piece for a match. -/
def Fragment.expand (r : Regex) (text : Array Char) (found : Slots) : Fragment → List Char
  | literal s => s
  | reference name =>
    let group := groupNumber? name <|> r.names.lookup (String.ofList name)
    match group.bind (span? found) with
    | some span => slice text span
    | none => []

/-- The text with its matches replaced, from a place on. -/
def Regex.replaceFrom (r : Regex) (text : Array Char) (template : List Fragment) (place : Nat) :
    List Slots → List Char
  | [] => slice text (place, text.size)
  | found :: rest =>
    match span? found 0 with
    | some (start, stop) =>
      slice text (place, start) ++ template.flatMap (·.expand r text found) ++
        replaceFrom r text template stop rest
    | none => slice text (place, text.size)

/-- The text with all matches replaced. -/
def Regex.replaceAll (r : Regex) (s replacement : List Char) : List Char :=
  let text := s.toArray
  r.replaceFrom text (fragments (replacement.length + 1) replacement) 0 (r.matches text)

/-- The texts of the whole match and of all groups, for the first match. -/
def Regex.firstMatch? (r : Regex) (s : List Char) : Option (List (Option (List Char))) :=
  let text := s.toArray
  (r.search text 0).map (groupTexts text)

end ColumnTree.Pattern
