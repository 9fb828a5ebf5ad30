/-
# Formulas made from columns

The formulas of sums, means and joined texts are not written by hand but made from the columns that
take part, and then read and compiled like any other.  In a mean the columns have weights; a weight
of zero counts as one in its term but not in the total.
-/
import ColumnTree.Formula.Compile
import ColumnTree.Formula.Contribution

namespace ColumnTree.Formula

/-- A reference to a column. -/
def reference (name : String) : List Char :=
  '$' :: '(' :: name.toList ++ [')']

/-- The factor of a column in a mean. -/
def Contribution.factor (c : Contribution) : Float :=
  if c.weight == 0.0 || c.weight.isNaN then 1.0 else c.weight

/-- The term of a column in a mean. -/
def Contribution.weighted (c : Contribution) : List Char :=
  numberText c.factor ++ '*' :: reference c.name

/-- The total weight of some columns. -/
def totalWeight (cs : List Contribution) : Float :=
  cs.foldl (fun total c => total + c.weight) 0.0

/-- Terms with plus signs between them. -/
def summed (terms : List (List Char)) : List Char :=
  Text.join " + ".toList terms

/-- The formula that an operation makes from columns that take part; a custom one makes none. -/
def recipe (op : Operation) (cs : List Contribution) : Option (List Char) :=
  match op with
  | .custom => none
  | .sum => some (summed (cs.map fun c => reference c.name))
  | .concat => some (summed (cs.map fun c => "string(".toList ++ reference c.name ++ [')']))
  | .mean =>
    some ('(' :: summed (cs.map (·.weighted)) ++ ") / ".toList ++ numberText (totalWeight cs))

/-- The formula that an operation makes from columns. -/
def sourceOf (op : Operation) (cs : List Contribution) : Option String :=
  (recipe op (cs.filter (·.used))).map String.ofList

/-- What comes of making a formula. -/
inductive Generated where
  /-- There is nothing to make. -/
  | unchanged
  /-- A formula and what it compiles to. -/
  | valid (formula : String) (compiled : Expr)
  /-- The text is no formula, or none that compiles. -/
  | invalid (message : String)

/-- Makes the formula of an operation. -/
def generate (l : Library) (op : Operation) (cs : List Contribution) : Generated :=
  match sourceOf op cs with
  | none => .unchanged
  | some formula =>
    match parse formula with
    | .error _ => .invalid "syntax error"
    | .ok a =>
      match compile l a with
      | .ok e => .valid formula e
      | .error fault => .invalid fault.line

/-- The report of what came of making a formula. -/
def Generated.toJson : Generated → Json
  | unchanged => .obj [("valid", .bool true)]
  | valid formula compiled =>
    .obj [("valid", .bool true), ("formula", .str formula), ("exec", .str compiled.exec)]
  | invalid message => .obj [("valid", .bool false), ("msg", .str message)]

end ColumnTree.Formula
