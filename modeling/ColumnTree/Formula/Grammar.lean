/-
# Reading formulas

A formula is read level by level, from the operators that bind least to those that bind most: `or`,
`and`, comparisons, sums, products, signs, powers, indexes, and single operands.  On each level the
text is scanned, cut at an operator of that level that stands on top, and the pieces are read in
turn.  Sums, products and the words are cut at their last operator, so that they group to the left;
powers at their first.  Comparisons do not chain.

`split` says how one level cuts a text.  It does not recurse, and every piece it gives is shorter
than the text, or has the same length and a tighter level (`split_weight`).  `parseAt` follows the
pieces.  Where two pieces are faulty the fault of the left one is reported, except that in `t[i]`
the index is read first.
-/
import ColumnTree.Decimal.Reader
import ColumnTree.Formula.Scan
import ColumnTree.Text.Blank
import ColumnTree.Text.Letters

namespace ColumnTree.Formula

/-- The characters of identifiers: letters and numbers of any script, and the underscore. -/
def isIdentChar (c : Char) : Bool :=
  Text.isAlphanumeric c || c == '_'

/-- The levels of the grammar, the loosest first. -/
inductive Level where
  /-- A whole expression, blanks around it allowed. -/
  | expression
  | disjunction
  | conjunction
  | comparison
  | sum
  | product
  | unary
  | power
  | indexed
  | primary
deriving DecidableEq, Repr

/-- Tighter levels have smaller ranks. -/
def Level.rank : Level → Nat
  | expression => 9
  | disjunction => 8
  | conjunction => 7
  | comparison => 6
  | sum => 5
  | product => 4
  | unary => 3
  | power => 2
  | indexed => 1
  | primary => 0

/-- A text to be read at a level. -/
structure Piece where
  /-- The level. -/
  level : Level
  /-- The text. -/
  text : List Char
deriving DecidableEq, Repr

/-- What reading a piece is measured by: its length, and between equal lengths its level. -/
def Piece.weight (p : Piece) : Nat :=
  p.text.length * 10 + p.level.rank

/-- How a level cuts a text. -/
inductive Step where
  /-- The text is this tree. -/
  | done (tree : Ast)
  /-- The tree is that of another piece. -/
  | same (piece : Piece)
  /-- The tree is a node over the trees of the pieces, after the tokens in `head`. -/
  | node (tag : Tag) (head : List String) (pieces : List Piece)
  /-- The tree is a node over a target and an index, and the index is read first. -/
  | index (tag : Tag) (target index : Piece)

/-- The pieces of a step. -/
def Step.pieces : Step → List Piece
  | done _ => []
  | same p => [p]
  | node _ _ ps => ps
  | index _ t i => [i, t]

/-! ## Cutting a list of marks -/

/-- A place in a list of marks. -/
structure Cut where
  /-- The marks before the place, the nearest first. -/
  before : List Mark
  /-- The mark at the place. -/
  mark : Mark
  /-- The marks after the place. -/
  after : List Mark

/-- The text before a cut. -/
def Cut.left (c : Cut) : List Char :=
  textOf c.before.reverse

/-- The text after a cut. -/
def Cut.right (c : Cut) : List Char :=
  textOf c.after

/-- All cuts of a list of marks, in order; `before` are the marks already passed. -/
def cutsFrom (before : List Mark) : List Mark → List Cut
  | [] => []
  | m :: rest => ⟨before, m, rest⟩ :: cutsFrom (m :: before) rest

/-- All cuts of a list of marks, in order. -/
def cuts (marks : List Mark) : List Cut :=
  cutsFrom [] marks

/-- The first cut with a property. -/
def firstCut (p : Cut → Bool) (marks : List Mark) : Option Cut :=
  (cuts marks).find? p

/-- The last cut with a property. -/
def lastCut (p : Cut → Bool) (marks : List Mark) : Option Cut :=
  (cuts marks).reverse.find? p

/-! ## The operators of each level -/

/-- The marks after a word at the front of a list of marks. -/
def afterWord : List Char → List Mark → Option (List Mark)
  | [], ms => some ms
  | c :: cs, m :: ms => if m.char = c then afterWord cs ms else none
  | _ :: _, [] => none

/-- The marks after a word at a cut, if the word stands there on top and alone. -/
def Cut.afterKeyword? (c : Cut) (word : List Char) : Option (List Mark) :=
  if c.mark.top && c.before.head?.all (fun m => !isIdentChar m.char) then
    (afterWord word (c.mark :: c.after)).filter fun ms =>
      ms.head?.all fun m => !isIdentChar m.char
  else none

/-- Is the cut on top at one of these characters? -/
def Cut.isTop (c : Cut) (chars : List Char) : Bool :=
  c.mark.top && chars.contains c.mark.char

/-- The last character before a cut that is no blank. -/
def Cut.previous? (c : Cut) : Option Char :=
  (c.before.find? fun m => !Text.isBlank m.char).map (·.char)

/-- Is the cut at the sign of an exponent, as in `1e-5`? -/
def Cut.isExponentSign (c : Cut) : Bool :=
  match c.before with
  | e :: d :: _ => (e.char == 'e' || e.char == 'E') && d.char.isDigit
  | _ => false

/-- Is the cut at a sign between two operands?  A sign at the start or after an operator or a comma
belongs to the operand after it. -/
def Cut.isBinarySign (c : Cut) : Bool :=
  c.isTop ['+', '-'] && !c.isExponentSign &&
    match c.previous? with
    | none => false
    | some p => !(['+', '-', '*', '/', '<', '>', '=', '!', ','].contains p)

/-- Is the next mark a star? -/
def startsWithStar (marks : List Mark) : Bool :=
  marks.head?.any fun m => m.char == '*'

/-- Is the cut at a product or quotient sign, and not at half of a power sign? -/
def Cut.isProductSign (c : Cut) : Bool :=
  c.isTop ['/'] || (c.isTop ['*'] && !startsWithStar c.before && !startsWithStar c.after)

/-- Is the cut at a power sign? -/
def Cut.isPowerSign (c : Cut) : Bool :=
  c.isTop ['*'] && startsWithStar c.after

/-- The comparison at a cut, and the marks after it. -/
def Cut.comparison? (c : Cut) : Option (Tag × List Mark) :=
  match c.mark.char, c.after with
  | '<', m :: ms => if m.char = '=' then some (.le, ms) else some (.lt, m :: ms)
  | '>', m :: ms => if m.char = '=' then some (.ge, ms) else some (.gt, m :: ms)
  | '=', m :: ms => if m.char = '=' then some (.equal, ms) else none
  | '!', m :: ms => if m.char = '=' then some (.unequal, ms) else none
  | '<', [] => some (.lt, [])
  | '>', [] => some (.gt, [])
  | _, _ => none

/-! ## How each level cuts -/

/-- Two operands, neither of them empty. -/
def twoOperands (fault : SyntaxFault) (tag : Tag) (l r : Level) (left right : List Char) :
    Except SyntaxFault Step :=
  if (Text.trim left).isEmpty || (Text.trim right).isEmpty then .error fault
  else .ok (.node tag [] [⟨l, Text.trim left⟩, ⟨r, Text.trim right⟩])

/-- The levels of `or` and `and`. -/
def splitKeyword (word : String) (tag : Tag) (this next : Level) (t : List Char) :
    Except SyntaxFault Step :=
  match scan t with
  | .error e => .error e
  | .ok marks =>
    match lastCut (fun c => (c.afterKeyword? word.toList).isSome) marks with
    | none => .ok (.same ⟨next, t⟩)
    | some c =>
      twoOperands (.operands word) tag this next c.left
        (textOf ((c.afterKeyword? word.toList).getD []))

/-- The level of comparisons. -/
def splitComparison (t : List Char) : Except SyntaxFault Step :=
  match scan t with
  | .error e => .error e
  | .ok marks =>
    match firstCut (·.isTop ['<', '>', '=', '!']) marks with
    | none => .ok (.same ⟨.sum, t⟩)
    | some c =>
      match c.comparison? with
      | none => .error (.strayComparison c.mark.char c.mark.offset)
      | some (tag, rest) => twoOperands .comparisonOperands tag .sum .sum c.left (textOf rest)

/-- The level of sums and differences. -/
def splitSum (t : List Char) : Except SyntaxFault Step :=
  match scan t with
  | .error e => .error e
  | .ok marks =>
    match lastCut (·.isBinarySign) marks with
    | none => .ok (.same ⟨.product, t⟩)
    | some c =>
      if (Text.trim c.right).isEmpty then .error (.missingAfter c.mark.char)
      else
        let tag := if c.mark.char = '+' then Tag.sum else Tag.difference
        .ok (.node tag [] [⟨.sum, Text.trim c.left⟩, ⟨.product, Text.trim c.right⟩])

/-- The level of products and quotients. -/
def splitProduct (t : List Char) : Except SyntaxFault Step :=
  match scan t with
  | .error e => .error e
  | .ok marks =>
    match lastCut (·.isProductSign) marks with
    | none => .ok (.same ⟨.unary, t⟩)
    | some c =>
      let tag := if c.mark.char = '*' then Tag.product else Tag.quotient
      twoOperands (.operands (String.singleton c.mark.char)) tag .product .unary c.left c.right

/-- The level of signs. -/
def splitUnary (t : List Char) : Except SyntaxFault Step :=
  match Text.trim t with
  | '-' :: rest =>
    if (Text.trim rest).isEmpty then .error (.missingAfter '-')
    else .ok (.node .negation [] [⟨.unary, rest⟩])
  | '+' :: rest => .ok (.same ⟨.unary, rest⟩)
  | t' => .ok (.same ⟨.power, t'⟩)

/-- The level of powers. -/
def splitPower (t : List Char) : Except SyntaxFault Step :=
  match scan t with
  | .error e => .error e
  | .ok marks =>
    match firstCut (·.isPowerSign) marks with
    | none => .ok (.same ⟨.indexed, t⟩)
    | some c =>
      twoOperands (.operands "**") .power .indexed .unary c.left (textOf (c.after.drop 1))

/-- Is the text one pair of parentheses with everything inside?  Only its first and its last
character are on top then. -/
def isWrapped (t : List Char) : Except SyntaxFault Bool :=
  if t.head? == some '(' && t.getLast? == some ')' then
    match scan t with
    | .error e => .error e
    | .ok marks => .ok ((marks.filter (·.top)).length == 2)
  else .ok false

/-- The level of indexes. -/
def splitIndexed (text : List Char) : Except SyntaxFault Step :=
  let t := Text.trim text
  if t.getLast? == some ']' then
    match scan t with
    | .error e => .error e
    | .ok marks =>
      match lastCut (·.isTop ['[']) marks with
      | none => .ok (.same ⟨.primary, t⟩)
      | some c =>
        let target := Text.trim c.left
        if target.isEmpty then .error .listLiteral
        else
          let index : Piece := ⟨.expression, c.right.dropLast⟩
          match isWrapped target with
          | .error e => .error e
          | .ok true => .ok (.index .indexParentheses ⟨.primary, target⟩ index)
          | .ok false => .ok (.index .index ⟨.indexed, target⟩ index)
  else .ok (.same ⟨.primary, t⟩)

/-! ## Single operands -/

/-- The text between the first and the last character. -/
def inside (t : List Char) : List Char :=
  (t.drop 1).dropLast

/-- An attribute reference, which must take up the whole text. -/
def splitReference (t : List Char) : Except SyntaxFault Step :=
  match scan t with
  | .error e => .error e
  | .ok marks =>
    let close := (marks.drop 2).findIdx? fun m => m.top && m.char == ')'
    if (t.drop 1).head? == some '(' && close.any (· + 3 == t.length) then
      let name := Text.trim (inside (t.drop 1))
      if name.isEmpty then .error .emptyReference
      else .ok (.done (.leaf .column (String.ofList name)))
    else .error (.badReference (String.ofList t))

/-- Does an odd number of backslashes stand just before a place?  `before` has the nearest mark
first. -/
def isEscaped (before : List Mark) : Bool :=
  (before.takeWhile fun m => m.char == '\\').length % 2 == 1

/-- The text that the inside of a literal stands for: a backslash takes the next character as it
is, except that `\n` and `\t` are a line feed and a tab. -/
def unescape : List Char → List Char
  | '\\' :: c :: rest =>
    (if c = 'n' then '\n' else if c = 't' then '\t' else c) :: unescape rest
  | c :: rest => c :: unescape rest
  | [] => []

/-- A text literal: the first quote that closes it must be the last character. -/
def splitText (quote : Char) (t : List Char) : Except SyntaxFault Step :=
  match scan t with
  | .error e => .error e
  | .ok marks =>
    let closing := (cuts marks).drop 1 |>.find? fun c => c.mark.char == quote && !isEscaped c.before
    if closing.any (·.after.isEmpty) then
      .ok (.done (.leaf .text (String.ofList (unescape (inside t)))))
    else .error (.afterText (String.ofList t))

/-- The texts between the commas on top; `current` is the text since the last one, reversed. -/
def commaPieces (current : List Char) : List Mark → List (List Char)
  | [] => [current.reverse]
  | m :: rest =>
    if m.top && m.char == ',' then current.reverse :: commaPieces [] rest
    else commaPieces (m.char :: current) rest

/-- The arguments of a call. -/
def argumentPieces (t : List Char) : Except SyntaxFault (List Piece) :=
  if (Text.trim t).isEmpty then .ok []
  else match scan t with
    | .error e => .error e
    | .ok marks => .ok ((commaPieces [] marks).map fun s => ⟨.expression, s⟩)

/-- Is the text an identifier that begins with a letter or an underscore? -/
def isIdentifier (name : List Char) : Bool :=
  name.head?.any (fun c => Text.isAlphabetic c || c == '_') && name.all isIdentChar

/-- A call, or nothing that is known. -/
def splitCall (t : List Char) : Except SyntaxFault Step :=
  let name := Text.trim (t.takeWhile (· != '('))
  let call := t.dropWhile (· != '(')
  if !call.isEmpty && isIdentifier name then
    match isWrapped call with
    | .error e => .error e
    | .ok true =>
      match argumentPieces (inside call) with
      | .error e => .error e
      | .ok pieces => .ok (.node .call [String.ofList name] pieces)
    | .ok false => .error (.unexpected (String.ofList t))
  else .error (.unexpected (String.ofList t))

/-- A literal that is a word, a number, or else a call. -/
def splitWord (t : List Char) : Except SyntaxFault Step :=
  if t = "true".toList then .ok (.done (.node .trueLiteral []))
  else if t = "false".toList then .ok (.done (.node .falseLiteral []))
  else if t = ['e'] ∨ t = ['E'] then .ok (.done (.node .euler []))
  else if t.head?.any (fun c => c.isDigit || c == '.') then
    if (Decimal.read? t).isSome then .ok (.done (.leaf .number (String.ofList t)))
    else .error (.badNumber (String.ofList t))
  else splitCall t

/-- The level of single operands. -/
def splitPrimary (text : List Char) : Except SyntaxFault Step :=
  let t := Text.trim text
  match t.head? with
  | none => .error .missingOperand
  | some '$' => splitReference t
  | some c =>
    match isWrapped t with
    | .error e => .error e
    | .ok true => .ok (.node .parentheses [] [⟨.expression, inside t⟩])
    | .ok false => if c = '"' ∨ c = '\'' then splitText c t else splitWord t

/-- A whole expression, without the blanks around it. -/
def splitExpression (t : List Char) : Except SyntaxFault Step :=
  if (Text.trim t).isEmpty then .error .emptyExpression
  else .ok (.same ⟨.disjunction, Text.trim t⟩)

/-- How a level cuts a text. -/
def split : Level → List Char → Except SyntaxFault Step
  | .expression => splitExpression
  | .disjunction => splitKeyword "or" .disjunction .disjunction .conjunction
  | .conjunction => splitKeyword "and" .conjunction .conjunction .comparison
  | .comparison => splitComparison
  | .sum => splitSum
  | .product => splitProduct
  | .unary => splitUnary
  | .power => splitPower
  | .indexed => splitIndexed
  | .primary => splitPrimary

end ColumnTree.Formula
