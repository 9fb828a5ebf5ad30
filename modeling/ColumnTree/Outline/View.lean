/-
# Views

A view is an outline, or a part of it, as nested values, for showing.

A table shows the columns of the frontier of a view: below the top, level by level, it goes down
until a record is closed, that is, has nothing below or is not shown opened up.  An aggregation
without a formula has no column and is always gone through.
-/
import ColumnTree.Outline.Stored
import ColumnTree.Outline.Tree

namespace ColumnTree.Outline

/-- A record with all that is below it. -/
inductive View where
  | node (id : RecordId) (name : String) (children : List View) (shown : Bool) (kind : Kind)
    (formula : String)

namespace View

/-- The children. -/
def children : View → List View
  | node _ _ cs .. => cs

/-- The name. -/
def name : View → String
  | node _ n .. => n

/-- Is there nothing below? -/
def isLeaf (v : View) : Bool :=
  v.children.isEmpty

mutual

/-- How many records there are. -/
def size : View → Nat
  | node _ _ cs .. => 1 + sizes cs

/-- How many records there are in several views. -/
def sizes : List View → Nat
  | [] => 0
  | v :: rest => size v + sizes rest

end

theorem sizes_append (vs ws : List View) : sizes (vs ++ ws) = sizes vs + sizes ws := by
  induction vs with
  | nil => simp [sizes]
  | cons v rest ih => simp [sizes, ih, Nat.add_assoc]

theorem size_eq (v : View) : v.size = 1 + sizes v.children := by
  cases v
  rw [size, children]

/-! ## The columns that are seen -/

/-- Does a record show a column of its own, and nothing below? -/
def isClosed : View → Bool
  | node _ _ cs shown kind formula =>
    !(kind == .aggregation && formula == "") && (cs.isEmpty || !shown)

/-- The names of the closed records that come first on the ways down, level by level. -/
def frontier : List View → List String
  | [] => []
  | v :: rest =>
    if v.isClosed then v.name :: frontier rest else frontier (rest ++ v.children)
termination_by vs => sizes vs
decreasing_by
  · have := size_eq v
    simp [sizes]
    omega
  · have := size_eq v
    simp [sizes, sizes_append]
    omega

/-- The names of the columns that are seen; the top has none. -/
def visibleColumns (v : View) : List String :=
  frontier v.children

/-! ## Views in JSON -/

mutual

/-- The stored form of a view. -/
def toJson : View → Json
  | node id name children shown kind formula =>
    .obj [("id", .word id), ("name", .str name), ("children", .arr (toJsonAll children)),
      ("isShown", .bool shown), ("type", .str kind.name), ("formula", .str formula)]

/-- The stored forms of several views. -/
def toJsonAll : List View → List Json
  | [] => []
  | v :: rest => toJson v :: toJsonAll rest

end

mutual

/-- The view that is stored. -/
def ofJson? : Json → Option View
  | .obj fields => do
    return node (← Fields.required fields "id" Json.word?)
      (← Fields.required fields "name" Json.text?)
      (← children? fields)
      (← Fields.required fields "isShown" Json.bool?)
      (← Fields.required fields "type" Kind.ofJson?)
      (← Fields.required fields "formula" Json.text?)
  | _ => none

/-- The children in the fields of a stored view. -/
def children? : List (String × Json) → Option (List View)
  | [] => none
  | (name, j) :: rest => if name = "children" then list? j else children? rest

/-- A list of stored views. -/
def list? : Json → Option (List View)
  | .arr items => items? items
  | _ => none

/-- The items of a list of stored views. -/
def items? : List Json → Option (List View)
  | [] => some []
  | j :: rest => do return (← ofJson? j) :: (← items? rest)

end

end View

namespace Tree

/-- The view of a record, not deeper than a number of levels. -/
def viewTo (t : Tree) : Nat → RecordId → Option View
  | 0, _ => none
  | levels + 1, id =>
    (t.find? id).map fun r =>
      .node r.id r.name (r.children.filterMap (viewTo t levels)) r.shown r.kind r.formula

/-- The view of a record and all that is below it: no way down has more levels than there are
records. -/
def view? (t : Tree) (id : RecordId) : Option View :=
  t.viewTo t.size id

end Tree

end ColumnTree.Outline
