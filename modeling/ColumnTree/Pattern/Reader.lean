/-
# Reading regular expressions

The usual notation, without looking around and without references back to groups.  Letters in
parentheses after a question mark set flags up to the end of the group: `i` ignores case, `m` makes
`^` and `$` match at lines, `s` lets the dot match a line feed, `R` makes a carriage return end
lines too, `U` swaps greedy and lazy, `u` (set from the start) makes sets those of Unicode, and `x`
ignores blanks and comments.

Sets in brackets can be nested, and have the operators `&&`, `--` and `~~`.  With `u` unset a set
must hold only ASCII characters.
-/
import ColumnTree.Decimal.Power
import ColumnTree.Pattern.Normal
import ColumnTree.Text.Pieces

namespace ColumnTree.Pattern

/-- The flags. -/
structure Flags where
  ignoreCase : Bool
  multiLine : Bool
  dotAll : Bool
  swapGreed : Bool
  unicode : Bool
  crlf : Bool
  extended : Bool

namespace Flags

/-- The flags at the start. -/
def initial : Flags := ⟨false, false, false, false, true, false, false⟩

/-- The flags with the flag of a letter set or unset, if there is one. -/
def put? (f : Flags) (letter : Char) (on : Bool) : Option Flags :=
  match letter with
  | 'i' => some { f with ignoreCase := on }
  | 'm' => some { f with multiLine := on }
  | 's' => some { f with dotAll := on }
  | 'U' => some { f with swapGreed := on }
  | 'u' => some { f with unicode := on }
  | 'R' => some { f with crlf := on }
  | 'x' => some { f with extended := on }
  | _ => none

/-- The text after blanks and comments, if these are ignored; `comment` says that one is open. -/
def skipFrom (comment : Bool) : List Char → List Char
  | [] => []
  | c :: rest =>
    if comment then skipFrom (c != '\n') rest
    else if c = '#' then skipFrom true rest
    else if Text.isBlank c then skipFrom false rest
    else c :: rest

/-- The text after what is ignored. -/
def skip (f : Flags) (s : List Char) : List Char :=
  if f.extended then skipFrom false s else s

/-- The set with all cases of its characters, if case is ignored. -/
def withCase (f : Flags) (s : CharSet) : CharSet :=
  if f.ignoreCase then .anyCase (!f.unicode) s else s

/-- A set as it is meant under the flags, perhaps negated; none if it leaves ASCII and must not. -/
def closed? (f : Flags) (negated : Bool) (s : CharSet) : Option CharSet :=
  let t := if negated then .complement (f.withCase s) else f.withCase s
  if f.unicode || t.isAscii then some t else none

end Flags

/-- What stands for one character or one place. -/
inductive Atom where
  /-- A character; `byte` if it was given by two hexadecimal digits. -/
  | char (c : Char) (byte : Bool)
  | set (s : CharSet)
  | look (l : Look)

/-! ## Escapes -/

/-- The value of a hexadecimal digit. -/
def hexDigit? (c : Char) : Option Nat :=
  if '0' ≤ c ∧ c ≤ '9' then some (c.toNat - '0'.toNat)
  else if 'a' ≤ c ∧ c ≤ 'f' then some (c.toNat - 'a'.toNat + 10)
  else if 'A' ≤ c ∧ c ≤ 'F' then some (c.toNat - 'A'.toNat + 10)
  else none

/-- The character with a code point. -/
def charOf? (n : Nat) : Option Char :=
  if h : n.isValidChar then some (Char.ofNatAux n h) else none

/-- So many hexadecimal digits. -/
def hexDigits (f : Flags) (value : Nat) : Nat → List Char → Option (Nat × List Char)
  | 0, s => some (value, s)
  | n + 1, s =>
    match s with
    | [] => none
    | c :: rest => do hexDigits f (16 * value + (← hexDigit? c)) n (f.skip rest)

/-- Hexadecimal digits up to a closing brace; `fuel` bounds their number. -/
def hexBrace (f : Flags) (value : Option Nat) : Nat → List Char → Option (Nat × List Char)
  | 0, _ => none
  | fuel + 1, s =>
    match f.skip s with
    | [] => none
    | '\x7d' :: rest => do return (← value, f.skip rest)
    | c :: rest => do hexBrace f (some (16 * value.getD 0 + (← hexDigit? c))) fuel rest

/-- A character by its code point: so many digits, or any number of them in braces. -/
def hexEscape (f : Flags) (width : Nat) (s : List Char) : Option (Atom × List Char) := do
  match f.skip s with
  | '\x7b' :: rest =>
    let (n, rest) ← hexBrace f none (rest.length + 1) rest
    return (.char (← charOf? n) false, rest)
  | s =>
    let (n, rest) ← hexDigits f 0 width s
    return (.char (← charOf? n) (width == 2), rest)

/-- The text up to a closing brace, without what is ignored; `fuel` bounds its length. -/
def braced (f : Flags) : Nat → List Char → Option (List Char × List Char)
  | 0, _ => none
  | fuel + 1, s =>
    match f.skip s with
    | [] => none
    | '\x7d' :: rest => some ([], rest)
    | c :: rest => do
      let (name, rest) ← braced f fuel rest
      return (c :: name, rest)

/-- The set that the inside of a braced property stands for, and whether it is negated. -/
def propertySet? (name : List Char) : Option (CharSet × Bool) :=
  match Text.cutAt? ['!', '='] name with
  | some (p, v) => do return (← CharSet.valued? (CharSet.looseName p) (CharSet.looseName v), true)
  | none =>
    match Text.cutAt? [':'] name <|> Text.cutAt? ['='] name with
    | some (p, v) => do
      return (← CharSet.valued? (CharSet.looseName p) (CharSet.looseName v), false)
    | none => do return (← CharSet.named? (CharSet.looseName name), false)

/-- A set by a property. -/
def propertyEscape (f : Flags) (negated : Bool) (s : List Char) : Option (Atom × List Char) := do
  let (set, flip, rest) ← match f.skip s with
    | '\x7b' :: rest => do
      let (name, rest) ← braced f (rest.length + 1) rest
      let (set, flip) ← propertySet? name
      pure (set, flip, rest)
    | c :: rest =>
      if c = '\\' then none
      else do pure (← CharSet.named? (CharSet.looseName [c]), false, f.skip rest)
    | [] => none
  if f.unicode then return (.set (← f.closed? (negated != flip) set), rest) else none

/-- A special word boundary in braces; none inside if it is no word at all, so that it may be a
repetition. -/
def boundaryEscape (f : Flags) (s : List Char) : Option (Look × List Char) :=
  let isName (c : Char) : Bool := c.isAlpha || c == '-'
  let ascii := !f.unicode
  match s with
  | '\x7b' :: rest =>
    match f.skip rest with
    | [] => none
    | c :: _ =>
      if isName c then do
        let (name, rest) ← braced f (rest.length + 1) rest
        match String.ofList name with
        | "start" => return (.wordStart ascii, rest)
        | "end" => return (.wordEnd ascii, rest)
        | "start-half" => return (.wordStartHalf ascii, rest)
        | "end-half" => return (.wordEndHalf ascii, rest)
        | _ => none
      else some (.wordBoundary ascii, s)
  | s => some (.wordBoundary ascii, s)

/-- The sets named by one letter. -/
def letterSet (f : Flags) (c : Char) : Option (CharSet × Bool) :=
  let pick (unicode ascii : CharSet) : CharSet := if f.unicode then unicode else ascii
  match c with
  | 'd' => some (pick (.categories ["nd"]) .digits, false)
  | 'D' => some (pick (.categories ["nd"]) .digits, true)
  | 's' => some (pick .blank .asciiBlank, false)
  | 'S' => some (pick .blank .asciiBlank, true)
  | 'w' => some (pick .word .asciiWord, false)
  | 'W' => some (pick .word .asciiWord, true)
  | _ => none

/-- The controls that have letters. -/
def control? : Char → Option Char
  | 'a' => some '\x07'
  | 'f' => some '\x0c'
  | 't' => some '\t'
  | 'n' => some '\n'
  | 'r' => some '\r'
  | 'v' => some '\x0b'
  | _ => none

/-- What stands after a backslash. -/
def escape (f : Flags) : List Char → Option (Atom × List Char)
  | [] => none
  | c :: rest =>
    match letterSet f c, control? c with
    | some (set, negated), _ =>
      let t := if negated then .complement set else set
      if f.unicode || t.isAscii then some (.set t, rest) else none
    | none, some d => some (.char d false, rest)
    | none, none =>
      match c with
      | 'x' => hexEscape f 2 rest
      | 'u' => hexEscape f 4 rest
      | 'U' => hexEscape f 8 rest
      | 'p' => propertyEscape f false rest
      | 'P' => propertyEscape f true rest
      | 'A' => some (.look .textStart, rest)
      | 'z' => some (.look .textEnd, rest)
      | 'b' => (boundaryEscape f rest).map fun r => (.look r.1, r.2)
      | 'B' => some (.look (.noWordBoundary (!f.unicode)), rest)
      | '<' => some (.look (.wordStart (!f.unicode)), rest)
      | '>' => some (.look (.wordEnd (!f.unicode)), rest)
      | c => if c.toNat < 0x80 && !c.isAlphanum then some (.char c false, rest) else none

/-! ## Sets in brackets -/

/-- The operators between sets. -/
inductive SetOperator where
  | intersection
  | difference
  | symmetricDifference

/-- A set, and how many levels of brackets, of operators and of several items side by side stand
within each other in its notation. -/
structure Notated where
  set : CharSet
  levels : Nat

/-- The items of a set so far: their characters, and the levels of each. -/
structure Gathered where
  set : CharSet
  levels : List Nat

/-- The levels of several things side by side: one more than the deepest has.  One thing alone is
only itself. -/
def levelsOf : List Nat → Nat
  | [] => 0
  | [n] => n
  | levels => levels.foldl max 0 + 1

namespace Gathered

/-- No items. -/
def empty : Gathered := ⟨.empty, []⟩

/-- One more item. -/
def add (g : Gathered) (item : Notated) : Gathered :=
  ⟨.union g.set item.set, item.levels :: g.levels⟩

/-- One more item that is only a character or a range. -/
def addPlain (g : Gathered) (s : CharSet) : Gathered :=
  g.add ⟨s, 0⟩

/-- All items as one set. -/
def all (g : Gathered) : Notated :=
  ⟨g.set, levelsOf g.levels⟩

end Gathered

/-- An operand on the left that waits for the one on the right. -/
abbrev Pending := Option (SetOperator × Notated)

/-- The set of an operator and its operands. -/
def SetOperator.apply (op : SetOperator) (left right : CharSet) : CharSet :=
  match op with
  | intersection => .intersection left right
  | difference => .difference left right
  | symmetricDifference => .symmetricDifference left right

/-- The set of a waiting operand and the one on the right. -/
def combine (f : Flags) (pending : Pending) (right : Notated) : Notated :=
  match pending with
  | none => right
  | some (op, left) =>
    ⟨op.apply (f.withCase left.set) (f.withCase right.set), max left.levels right.levels + 1⟩

/-- A set by a name between colons, after its opening bracket. -/
def colonSet? (f : Flags) (s : List Char) : Option (CharSet × List Char) := do
  let s ← match s with
    | ':' :: r => some r
    | _ => none
  let (negated, s) := match s with
    | '^' :: r => (true, r)
    | r => (false, r)
  let name := s.takeWhile (· != ':')
  match s.dropWhile (· != ':') with
  | ':' :: ']' :: rest =>
    return (← f.closed? negated (← CharSet.asciiNamed? (String.ofList name)), rest)
  | _ => none

/-- One item of a set. -/
def setItem (f : Flags) : List Char → Option (Atom × List Char)
  | [] => none
  | '\\' :: rest => escape f rest
  | c :: rest => some (.char c false, rest)

/-- The character that an item is, if it may stand in a set. -/
def Atom.setChar? (f : Flags) : Atom → Option Char
  | .char c _ => if f.unicode || c.toNat < 0x80 then some c else none
  | _ => none

/-- The set that an item is. -/
def Atom.itemSet? (f : Flags) (a : Atom) : Option CharSet :=
  match a with
  | .set s => some s
  | .look _ => none
  | a => (a.setChar? f).map .single

/-- An item or a range of characters. -/
def setRange (f : Flags) (s : List Char) : Option (CharSet × List Char) := do
  let (first, rest) ← setItem f s
  match f.skip rest with
  | [] => none
  | '-' :: after =>
    match f.skip after with
    | [] => none
    | c :: more =>
      if c = ']' ∨ c = '-' then return (← first.itemSet? f, '-' :: after)
      else do
        let (last, rest) ← setItem f (c :: more)
        let a ← first.setChar? f
        let b ← last.setChar? f
        if a ≤ b then return (.range a b, rest) else none
  | rest => return (← first.itemSet? f, rest)

/-- The hyphens that stand for themselves at the start of a set.  `fuel` bounds their number. -/
def leadingHyphens (f : Flags) (acc : Gathered) : Nat → List Char → Gathered × List Char
  | 0, s => (acc, s)
  | fuel + 1, s =>
    match s with
    | '-' :: rest => leadingHyphens f (acc.addPlain (.single '-')) fuel (f.skip rest)
    | s => (acc, s)

/-- The start of a set after its bracket: whether it is negated, and the hyphens or the bracket that
stand for themselves. -/
def setStart (f : Flags) (s : List Char) : Bool × Gathered × List Char :=
  let s := f.skip s
  let (negated, s) := match s with
    | '^' :: rest => (true, f.skip rest)
    | s => (false, s)
  match leadingHyphens f .empty s.length s with
  | (⟨_, []⟩, ']' :: rest) => (negated, Gathered.empty.addPlain (.single ']'), f.skip rest)
  | (acc, s) => (negated, acc, s)

/-- The rest of a set up to its closing bracket.  `fuel` bounds the items. -/
def setItems (f : Flags) (negated : Bool) (pending : Pending) (acc : Gathered) :
    Nat → List Char → Option (Notated × List Char)
  | 0, _ => none
  | fuel + 1, s =>
    let operator (op : SetOperator) (rest : List Char) :=
      setItems f negated (some (op, combine f pending acc.all)) .empty fuel rest
    match f.skip s with
    | [] => none
    | ']' :: rest => do
      let whole := combine f pending acc.all
      return (⟨← f.closed? negated whole.set, whole.levels + 1⟩, rest)
    | '&' :: '&' :: rest => operator .intersection rest
    | '-' :: '-' :: rest => operator .difference rest
    | '~' :: '~' :: rest => operator .symmetricDifference rest
    | '[' :: rest => do
      match colonSet? f rest with
      | some (s, rest) => setItems f negated pending (acc.addPlain s) fuel rest
      | none =>
        let (n, start, rest) := setStart f rest
        let (inner, rest) ← setItems f n none start fuel rest
        setItems f negated pending (acc.add inner) fuel rest
    | s => do
      let (item, rest) ← setRange f s
      setItems f negated pending (acc.addPlain item) fuel rest

/-- A set after its opening bracket. -/
def bracketed (f : Flags) (s : List Char) : Option (Notated × List Char) :=
  let (negated, start, rest) := setStart f s
  setItems f negated none start (rest.length + 1) rest

/-! ## Repetitions -/

/-- Decimal digits below `2 ^ 32`, blanks around them; `none` inside if there are none. -/
def decimal (f : Flags) (s : List Char) : Option (Option Nat × List Char) :=
  let rec digits (acc : Option Nat) : Nat → List Char → Option Nat × List Char
    | 0, s => (acc, s)
    | fuel + 1, s =>
      match s with
      | c :: rest =>
        if c.isDigit then
          digits (some (10 * acc.getD 0 + (c.toNat - '0'.toNat))) fuel (f.skip rest)
        else (acc, s)
      | [] => (acc, [])
  let (n, rest) := digits none s.length (Text.trimStart s)
  if n.all (· < twoTo 32) then some (n, Text.trimStart rest) else none

/-- The bounds of a counted repetition, after its brace. -/
def bounds (f : Flags) (s : List Char) : Option (Nat × Option Nat × List Char) := do
  let (least, rest) ← decimal f (f.skip s)
  match rest with
  | '\x7d' :: rest => return (← least, ← least, rest)
  | ',' :: rest =>
    match f.skip rest with
    | '\x7d' :: rest => return (← least, none, rest)
    | rest =>
      let least ← least
      let (most, rest) ← decimal f rest
      let most ← most
      match rest with
      | '\x7d' :: rest => if least ≤ most then return (least, some most, rest) else none
      | _ => none
  | _ => none

/-- Greedy unless a question mark follows. -/
def greed (f : Flags) : List Char → Bool × List Char
  | '?' :: rest => (f.swapGreed, rest)
  | s => (!f.swapGreed, s)

/-! ## Groups -/

/-- The groups so far: the number of the last one, and the names. -/
structure Groups where
  /-- The number of the last group. -/
  last : Nat
  /-- The names of groups, with their numbers. -/
  names : List (String × Nat)

/-- Letters of flags up to a colon or a closing parenthesis, which is returned too.  `off` says
that a hyphen has been read, `dangling` that it was the last character. -/
def flagLetters (f : Flags) (seen : List Char) (off dangling : Bool) :
    List Char → Option (Flags × Char × List Char)
  | [] => none
  | c :: rest =>
    if c = ':' ∨ c = ')' then if dangling then none else some (f, c, rest)
    else if c = '-' then if off then none else flagLetters f seen true true rest
    else if seen.contains c then none
    else do flagLetters (← f.put? c !off) (c :: seen) off false rest

/-- Is this a character of a group's name? -/
def isNameChar (first : Bool) (c : Char) : Bool :=
  if first then c == '_' || Text.isAlphabetic c
  else ['_', '.', '[', ']'].contains c || Text.isAlphanumeric c

/-- The name of a group up to its closing angle. -/
def groupName? (s : List Char) : Option (String × List Char) :=
  match s.takeWhile (· != '>'), s.dropWhile (· != '>') with
  | c :: name, '>' :: rest =>
    if isNameChar true c && name.all (isNameChar false) then
      some (String.ofList (c :: name), rest)
    else none
  | _, _ => none

/-- What an opening parenthesis begins. -/
inductive Opening where
  /-- Only flags for what follows. -/
  | flags (f : Flags)
  /-- A group; with a number if it captures. -/
  | group (index : Option Nat) (f : Flags) (groups : Groups)

/-- What an opening parenthesis begins, from the text after it. -/
def opening (f : Flags) (g : Groups) (s : List Char) : Option (Opening × List Char) :=
  let named (r : List Char) : Option (Opening × List Char) := do
    let (name, rest) ← groupName? r
    if (g.names.lookup name).isSome then none
    else return (.group (some (g.last + 1)) f ⟨g.last + 1, g.names ++ [(name, g.last + 1)]⟩, rest)
  match f.skip s with
  | '?' :: '=' :: _ | '?' :: '!' :: _ | '?' :: '<' :: '=' :: _ | '?' :: '<' :: '!' :: _ => none
  | '?' :: 'P' :: '<' :: rest | '?' :: '<' :: rest => named rest
  | '?' :: rest => do
    let (f', stop, after) ← flagLetters f [] false false rest
    if stop = ':' then return (.group none f' g, after)
    else if rest.head? == some ')' then none
    else return (.flags f', after)
  | rest => some (.group (some (g.last + 1)) f ⟨g.last + 1, g.names⟩, rest)

/-! ## The whole -/

/-- The set of a literal character.  With `u` unset, one beyond ASCII has no cases, and must not be
given as a byte. -/
def literal? (f : Flags) (c : Char) (byte : Bool) : Option CharSet :=
  if f.unicode || c.toNat < 0x80 then some (f.withCase (.single c))
  else if byte then none
  else some (.single c)

/-- The pattern of one character or place. -/
def Atom.node? (f : Flags) : Atom → Option Node
  | .char c byte => (literal? f c byte).map (.ofSet f.unicode)
  | .set s => some (.ofSet f.unicode s)
  | .look l => some (.look l)

/-- The set of the dot; it would leave ASCII. -/
def dot? (f : Flags) : Option CharSet :=
  if !f.unicode then none
  else if f.dotAll then some .full
  else if f.crlf then some (.complement (.union (.single '\n') (.single '\r')))
  else some (.complement (.single '\n'))

/-- The places `^` and `$`. -/
def edge (f : Flags) (start : Bool) : Look :=
  match f.multiLine, start with
  | true, true => .lineStart f.crlf
  | true, false => .lineEnd f.crlf
  | false, true => .textStart
  | false, false => .textEnd

/-- A pattern, and how many levels of brackets, groups, repetitions, sequences and choices stand
within each other in its notation. -/
structure Item where
  node : Node
  levels : Nat

/-- The most levels that a notation may have. -/
def levelLimit : Nat := 250

namespace Item

/-- The item with one level around it. -/
def wrap (around : Node → Node) (a : Item) : Item :=
  ⟨around a.node, a.levels + 1⟩

/-- The sequence of some items.  An item is `none` where flags were set. -/
def ofSequence (items : List (Option Item)) : Item :=
  ⟨.ofSequence ((items.filterMap id).map (·.node)),
    levelsOf (items.map fun a => (a.map (·.levels)).getD 0)⟩

/-- The choice between some items. -/
def ofChoices (items : List Item) : Item :=
  ⟨.ofChoices (items.map (·.node)), levelsOf (items.map (·.levels))⟩

end Item

/-- One character or place that is no operator. -/
def atom (f : Flags) : List Char → Option (Item × List Char)
  | [] => none
  | '\\' :: rest => do
    let (a, rest) ← escape f rest
    return (⟨← a.node? f, 0⟩, rest)
  | '.' :: rest => do return (⟨.ofSet f.unicode (← dot? f), 0⟩, rest)
  | '^' :: rest => some (⟨.look (edge f true), 0⟩, rest)
  | '$' :: rest => some (⟨.look (edge f false), 0⟩, rest)
  | '[' :: rest => do
    let (s, rest) ← bracketed f rest
    return (⟨.ofSet f.unicode s.set, s.levels⟩, rest)
  | c :: rest => do return (⟨.ofSet f.unicode (← literal? f c false), 0⟩, rest)

/-- The alternatives with one more that has these items, both from the last one on. -/
def withBranch (branches : List Item) (done : List (Option Item)) : List Item :=
  .ofSequence done.reverse :: branches

/-- Reads up to the end of the text or, in a group, past its closing parenthesis.  `branches` are
the alternatives before the last one, and `done` the items of that, both from the last one on;
`fuel` bounds the number of items. -/
def items (nested : Bool) (f : Flags) (g : Groups) (branches : List Item)
    (done : List (Option Item)) : Nat → List Char → Option (Item × Groups × List Char)
  | 0, _ => none
  | fuel + 1, s =>
    let repeatLast (least : Nat) (most : Option Nat) (rest : List Char) := do
      match done with
      | some a :: before =>
        let (greedy, rest) := greed f rest
        let a := a.wrap (.repeated least most greedy)
        items nested f g branches (some a :: before) fuel rest
      | _ => none
    match f.skip s with
    | [] => if nested then none else some (.ofChoices (withBranch branches done).reverse, g, [])
    | ')' :: rest =>
      if nested then some (.ofChoices (withBranch branches done).reverse, g, rest) else none
    | '|' :: rest => items nested f g (withBranch branches done) [] fuel rest
    | '?' :: rest => repeatLast 0 (some 1) rest
    | '*' :: rest => repeatLast 0 none rest
    | '+' :: rest => repeatLast 1 none rest
    | '\x7b' :: rest => do
      let (least, most, rest) ← bounds f rest
      repeatLast least most (f.skip rest)
    | '(' :: rest => do
      match ← opening f g rest with
      | (.flags f', rest) => items nested f' g branches (none :: done) fuel rest
      | (.group index f' g', rest) =>
        let (a, g, rest) ← items true f' g' [] [] fuel rest
        let a := a.wrap fun a =>
          match index with
          | some n => .group n a
          | none => a
        items nested f g branches (some a :: done) fuel rest
    | s => do
      let (a, rest) ← atom f s
      items nested f g branches (some a :: done) fuel rest

end ColumnTree.Pattern
