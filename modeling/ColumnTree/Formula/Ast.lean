/-
# Syntax trees of formulas

A tree is a node with a tag and children, or a bare token: the text of a literal, a column's name,
a function's name.  Any tag may stand over any children; the reader of formulas builds only trees
of the right shape, but trees may come from elsewhere, and then the compiler is what refuses them.
-/

namespace ColumnTree.Formula

/-- What a node of a syntax tree is. -/
inductive Tag where
  | sum
  | difference
  | product
  | quotient
  | power
  | disjunction
  | conjunction
  | le
  | lt
  | ge
  | gt
  | equal
  | unequal
  | negation
  | parentheses
  | call
  | trueLiteral
  | falseLiteral
  | text
  | number
  | euler
  | column
  | value
  | index
  /-- An index on parentheses. -/
  | indexParentheses
deriving DecidableEq, Repr

namespace Tag

/-- All tags. -/
def all : List Tag :=
  [sum, difference, product, quotient, power, disjunction, conjunction, le, lt, ge, gt, equal,
    unequal, negation, parentheses, call, trueLiteral, falseLiteral, text, number, euler, column,
    value, index, indexParentheses]

/-- The name of a tag in messages.  Its small letters are the name that stored trees have. -/
def name : Tag → String
  | sum => "Suma"
  | difference => "Resta"
  | product => "Producto"
  | quotient => "Division"
  | power => "Potencia"
  | disjunction => "Or"
  | conjunction => "And"
  | le => "Le"
  | lt => "Lt"
  | ge => "Ge"
  | gt => "Gt"
  | equal => "Equality"
  | unequal => "Inequality"
  | negation => "Negacion"
  | parentheses => "Parentesis"
  | call => "Function"
  | trueLiteral => "True"
  | falseLiteral => "False"
  | text => "Texto"
  | number => "Numero"
  | euler => "Natural"
  | column => "Attribute"
  | value => "Value"
  | index => "Indexing"
  | indexParentheses => "Indexing2"

/-- The name of a tag in stored trees. -/
def stored (t : Tag) : String :=
  t.name.toLower

/-- The tag that a stored name stands for. -/
def ofStored? (s : String) : Option Tag :=
  all.find? fun t => t.stored == s

/-- The operator between the two operands of a binary tag. -/
def operator? : Tag → Option String
  | sum => some "+"
  | difference => some "-"
  | product => some "*"
  | quotient => some "/"
  | power => some "**"
  | disjunction => some "or"
  | conjunction => some "and"
  | le => some "<="
  | lt => some "<"
  | ge => some ">="
  | gt => some ">"
  | equal => some "=="
  | unequal => some "!="
  | _ => none

end Tag

/-- A syntax tree. -/
inductive Ast where
  /-- A node with its children. -/
  | node (tag : Tag) (children : List Ast)
  /-- A bare token. -/
  | token (text : String)
deriving Inhabited

namespace Ast

/-- A node whose only child is a token. -/
def leaf (tag : Tag) (text : String) : Ast :=
  node tag [token text]

/-- The text of a token. -/
def token? : Ast → Option String
  | token t => some t
  | node .. => none

mutual

/-- The names of the columns, from left to right, repetitions kept.  Nothing below a column
counts. -/
def columns : Ast → List String
  | token _ => []
  | node .column children => (children.head?.bind token?).toList
  | node _ children => columnsOf children

/-- The names of the columns of several trees. -/
def columnsOf : List Ast → List String
  | [] => []
  | a :: rest => columns a ++ columnsOf rest

end

end Ast

end ColumnTree.Formula
