/-
# Compiled formulas

An `Expr` is a formula whose names have been looked up and whose literals have been read.  It has a
value on every row, a list of the columns that it reads, and a canonical text.

The canonical text is that of a function from a row `r`, and is what is stored and shown: columns
are `r["name"]`, texts and names are quoted as in JSON, `or` and `and` are `||` and `&&`.  It has no
parentheses but those of the formula.
-/
import ColumnTree.Formula.Ast
import ColumnTree.Json.Printer
import ColumnTree.Library.Basic

namespace ColumnTree.Formula

/-- The operators that take the values of both operands. -/
inductive Operator where
  | sum
  | difference
  | product
  | quotient
  | power
  | le
  | lt
  | ge
  | gt
  | equal
  | unequal
deriving DecidableEq, Repr

namespace Operator

/-- The sign of an operator. -/
def sign : Operator → String
  | sum => "+"
  | difference => "-"
  | product => "*"
  | quotient => "/"
  | power => "**"
  | le => "<="
  | lt => "<"
  | ge => ">="
  | gt => ">"
  | equal => "=="
  | unequal => "!="

/-- The value for two operands.  Operands without an order satisfy no comparison of order. -/
def apply (op : Operator) (a b : Cell) : Cell :=
  match op with
  | sum => a.add b
  | difference => a.sub b
  | product => a.mul b
  | quotient => a.div b
  | power => a.pow b
  | le => .bool ((a.compare? b).any (· != .gt))
  | lt => .bool (a.compare? b == some .lt)
  | ge => .bool ((a.compare? b).any (· != .lt))
  | gt => .bool (a.compare? b == some .gt)
  | equal => .bool (a.looseEq b)
  | unequal => .bool !(a.looseEq b)

end Operator

/-- A compiled formula. -/
inductive Expr where
  /-- A truth value. -/
  | bool (b : Bool)
  /-- A text. -/
  | text (s : String)
  /-- A number as it was written, and its value. -/
  | number (written : List Char) (x : Float)
  /-- Euler's number. -/
  | euler
  /-- The cell of a column. -/
  | column (name : String)
  /-- An operator on two values. -/
  | binary (op : Operator) (left right : Expr)
  /-- The left value if it counts as true, else the right one. -/
  | either (left right : Expr)
  /-- The right value if the left one counts as true, else the left one. -/
  | both (left right : Expr)
  /-- The opposite number. -/
  | negate (e : Expr)
  /-- An expression in parentheses. -/
  | group (e : Expr)
  /-- A call of a function. -/
  | call (f : Routine) (args : List Expr)
  /-- An item of a list or a character of a text. -/
  | index (target key : Expr)

/-- Euler's number. -/
def eulerNumber : Float := 2.718281828459045

namespace Expr

mutual

/-- The value on a row. -/
def eval (row : Row) : Expr → Cell
  | bool b => .bool b
  | text s => .text s
  | number _ x => .number x
  | euler => .number eulerNumber
  | column name => row name
  | binary op l r => op.apply (eval row l) (eval row r)
  | either l r =>
    let a := eval row l
    if a.truthy then a else eval row r
  | both l r =>
    let a := eval row l
    if a.truthy then eval row r else a
  | negate e => (eval row e).neg
  | group e => eval row e
  | call f args => f.apply (evalAll row args)
  | index t k => (eval row t).index (eval row k)

/-- The values of several expressions on a row. -/
def evalAll (row : Row) : List Expr → List Cell
  | [] => []
  | e :: rest => eval row e :: evalAll row rest

end

mutual

/-- The columns that are read, from left to right, repetitions kept. -/
def reads : Expr → List String
  | bool _ | text _ | number _ _ | euler => []
  | column name => [name]
  | binary _ l r | either l r | both l r => reads l ++ reads r
  | negate e | group e => reads e
  | call _ args => readsAll args
  | index t k => reads t ++ reads k

/-- The columns that several expressions read. -/
def readsAll : List Expr → List String
  | [] => []
  | e :: rest => reads e ++ readsAll rest

end

mutual

/-- The canonical text. -/
def write : Expr → List Char
  | bool b => (if b then "true" else "false").toList
  | text s => Json.quoted s.toList
  | number written _ => written
  | euler => numberText eulerNumber
  | column name => "r[".toList ++ Json.quoted name.toList ++ [']']
  | binary op l r => write l ++ ' ' :: op.sign.toList ++ ' ' :: write r
  | either l r => write l ++ " || ".toList ++ write r
  | both l r => write l ++ " && ".toList ++ write r
  | negate e => '-' :: write e
  | group e => '(' :: write e ++ [')']
  | call f args => f.name.toList ++ '(' :: Text.join [',', ' '] (writeAll args) ++ [')']
  | index t k => write t ++ '[' :: write k ++ [']']

/-- The canonical texts of several expressions. -/
def writeAll : List Expr → List (List Char)
  | [] => []
  | e :: rest => write e :: writeAll rest

end

/-- The canonical text, as a `String`. -/
def render (e : Expr) : String :=
  String.ofList e.write

/-- The canonical text as a function from rows. -/
def exec (e : Expr) : String :=
  "r => " ++ e.render

/-- The columns that are read, each once, in the order of their first places. -/
def distinctReads (e : Expr) : List String :=
  e.reads.eraseDups

end Expr

end ColumnTree.Formula
