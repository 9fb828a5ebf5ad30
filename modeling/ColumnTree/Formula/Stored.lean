/-
# Stored trees

A stored tree is a JSON text for a token and a JSON object for a node, with the tag as `data` and
the list of `children`, which may be missing if it is empty.
-/
import ColumnTree.Formula.Ast
import ColumnTree.Json.Basic

namespace ColumnTree.Formula.Ast

mutual

/-- The stored form of a tree. -/
def toJson : Ast → Json
  | token t => .str t
  | node tag children =>
    .obj [("data", .str tag.stored), ("children", .arr (toJsonAll children))]

/-- The stored forms of several trees. -/
def toJsonAll : List Ast → List Json
  | [] => []
  | a :: rest => toJson a :: toJsonAll rest

end

/-- The tag that is stored. -/
def storedTag? (j : Json) : Option Tag :=
  j.choice?.bind Tag.ofStored?

mutual

/-- The tree that is stored. -/
def ofJson? : Json → Option Ast
  | .str t => some (token t)
  | .obj fields => do
    let tag ← Fields.required fields "data" storedTag?
    return node tag (← children? fields)
  | _ => none

/-- The children in the fields of a stored node. -/
def children? : List (String × Json) → Option (List Ast)
  | [] => some []
  | (name, j) :: rest => if name = "children" then list? j else children? rest

/-- A list of stored trees. -/
def list? : Json → Option (List Ast)
  | .arr items => items? items
  | _ => none

/-- The items of a list of stored trees. -/
def items? : List Json → Option (List Ast)
  | [] => some []
  | j :: rest => do return (← ofJson? j) :: (← items? rest)

end

end ColumnTree.Formula.Ast
