/-
# From trees to compiled formulas

Compiling looks up the functions in a library and reads the literals.  Of several faults the first
one is reported, a node before its children and the children from left to right.  The tree of a
formula that was read has only one kind of fault, a function that is not in the library; other
trees may have a wrong shape.

Whether a call has as many arguments as its function is meant to have does not matter.
-/
import ColumnTree.Formula.Expr
import ColumnTree.Formula.Reader

namespace ColumnTree.Formula

/-- The operator of a tag, if its operands are both needed. -/
def Tag.eager? : Tag → Option Operator
  | sum => some .sum
  | difference => some .difference
  | product => some .product
  | quotient => some .quotient
  | power => some .power
  | le => some .le
  | lt => some .lt
  | ge => some .ge
  | gt => some .gt
  | equal => some .equal
  | unequal => some .unequal
  | _ => none

/-- The token that is the only child of a node. -/
def onlyToken (tag : Tag) : List Ast → Except Fault String
  | [.token t] => .ok t
  | [.node ..] => .error (.shape (.noToken tag))
  | children => .error (.shape (.arity tag 1 children.length))

/-- A number literal, blanks around it allowed. -/
def compileNumber (raw : String) : Except Fault Expr :=
  let written := Text.trim raw.toList
  match Decimal.read? written with
  | some x => .ok (.number written x)
  | none => .error (.shape (.badNumber raw))

/-- An expression with two operands. -/
def pair (tag : Tag) (l r : Expr) : Expr :=
  match tag, tag.eager? with
  | _, some op => .binary op l r
  | .disjunction, _ => .either l r
  | .conjunction, _ => .both l r
  | _, _ => .index l r

/-- An expression with one operand. -/
def single (tag : Tag) (e : Expr) : Expr :=
  match tag with
  | .negation => .negate e
  | .parentheses => .group e
  | _ => e

/-- How a node is compiled. -/
inductive Tag.Shape where
  /-- A constant, whatever the children are. -/
  | constant (e : Expr)
  /-- A literal or a name, from a token. -/
  | leaf (read : String → Except Fault Expr)
  | single
  | pair
  | call

/-- How a node with this tag is compiled. -/
def Tag.shape : Tag → Tag.Shape
  | trueLiteral => .constant (.bool true)
  | falseLiteral => .constant (.bool false)
  | euler => .constant .euler
  | text => .leaf fun t => .ok (.text t)
  | number => .leaf compileNumber
  | column => .leaf fun t => .ok (.column t)
  | negation | parentheses | value => .single
  | call => .call
  | _ => .pair

mutual

/-- The compiled formula of a tree. -/
def compile (l : Library) : Ast → Except Fault Expr
  | .token t => .error (.shape (.bareToken t))
  | .node tag children =>
    match tag.shape with
    | .constant e => .ok e
    | .leaf read => do read (← onlyToken tag children)
    | .single =>
      match children with
      | [a] => do return single tag (← compile l a)
      | _ => .error (.shape (.arity tag 1 children.length))
    | .pair =>
      match children with
      | [a, b] => do return pair tag (← compile l a) (← compile l b)
      | _ => .error (.shape (.arity tag 2 children.length))
    | .call =>
      match children with
      | .token name :: args => do
        let f ← l.resolve name
        return .call f (← compileAll l args)
      | _ => .error (.shape .namelessCall)

/-- The compiled formulas of several trees. -/
def compileAll (l : Library) : List Ast → Except Fault (List Expr)
  | [] => .ok []
  | a :: rest => do return (← compile l a) :: (← compileAll l rest)

end

/-- The compiled formula of a text. -/
def compileText (l : Library) (text : String) : Except Fault Expr :=
  match parse text with
  | .ok a => compile l a
  | .error e => .error (.text e)

/-- The compiled formula of a text that may read only some columns. -/
def compileScoped (l : Library) (allowed : List String) (text : String) : Except Fault Expr := do
  let e ← compileText l text
  match e.distinctReads.filter fun n => !allowed.contains n with
  | [] => return e
  | missing => throw (.outOfScope missing allowed)

end ColumnTree.Formula
