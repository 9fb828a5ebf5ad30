/-
# Records and patches

A record is a column of the table, an aggregation of other columns, or the root.  It lists the
numbers of its children in order; that list is the only stored link between records.

A patch changes some of the fields of a record.  Taking from the record the fields that a patch is
about to change gives the patch that takes the change back (`apply_capture`).
-/
import ColumnTree.Formula.Contribution

namespace ColumnTree.Outline

open Formula

/-- What a record is. -/
inductive Kind where
  | root
  /-- A column of the table. -/
  | column
  /-- A column that is worked out from others. -/
  | aggregation
deriving DecidableEq, Repr, Inhabited

/-- What the values of a column are; it is only declared. -/
inductive DataType where
  | number
  | text
  | date
  | unknown
  /-- There are no values. -/
  | none
deriving DecidableEq, Repr, Inhabited

/-- How an aggregation is worked out. -/
structure Aggregation where
  /-- What is done with the columns. -/
  operation : Operation
  /-- The formula, as it is read. -/
  formula : String
  /-- The formula, as it is executed. -/
  exec : String
  /-- The columns that may take part. -/
  columns : List Contribution
deriving BEq, Repr

namespace Aggregation

/-- The aggregation of some columns that has no formula yet. -/
def fresh (operation : Operation) (columns : List Contribution) : Aggregation :=
  ⟨operation, "", "", columns⟩

/-- Joins the texts of no columns. -/
def standard : Aggregation := fresh .concat []

/-- The aggregation without its formula. -/
def cleared (a : Aggregation) : Aggregation :=
  { a with formula := "", exec := "" }

/-- Does the aggregation list a column? -/
def lists (a : Aggregation) (id : RecordId) : Bool :=
  a.columns.any fun c => c.id == id

/-- The aggregation without a column. -/
def without (a : Aggregation) (id : RecordId) : Aggregation :=
  { a with columns := a.columns.filter fun c => c.id != id }

end Aggregation

/-- A record of the outline. -/
structure Record where
  /-- The number of the record. -/
  id : RecordId
  /-- The name of the column. -/
  name : String
  /-- What the record is. -/
  kind : Kind
  /-- What the values are. -/
  dataType : DataType
  /-- A description for the reader. -/
  description : String
  /-- Is the record shown opened up? -/
  shown : Bool
  /-- The numbers of the children, in order. -/
  children : List RecordId
  /-- How the record is worked out, if it is an aggregation. -/
  aggregation? : Option Aggregation
deriving BEq, Repr

namespace Record

/-- A root without children. -/
def root (name : String) : Record :=
  ⟨rootId, name, .root, .none, "", true, [], none⟩

/-- A column without children. -/
def column (id : RecordId) (name : String) : Record :=
  ⟨id, name, .column, .unknown, "", true, [], none⟩

/-- The formula of a record, the empty one if there is none. -/
def formula (r : Record) : String :=
  r.aggregation?.elim "" (·.formula)

/-- The record with all that an aggregation needs. -/
def completed (r : Record) : Record :=
  if r.kind = .aggregation ∧ r.aggregation?.isNone then
    { r with aggregation? := some .standard }
  else r

end Record

/-- New values for some of the fields of a record. -/
structure Patch where
  name : Option String
  kind : Option Kind
  dataType : Option DataType
  description : Option String
  shown : Option Bool
  /-- The inner option is the field itself: an aggregation may be taken away. -/
  aggregation : Option (Option Aggregation)
deriving BEq, Repr

namespace Patch

/-- The patch that changes nothing. -/
def empty : Patch := ⟨none, none, none, none, none, none⟩

/-- The patch that sets or takes away the aggregation. -/
def ofAggregation (a : Option Aggregation) : Patch :=
  { empty with aggregation := some a }

/-- Does the patch change no field? -/
def isEmpty (p : Patch) : Bool :=
  p.name.isNone && p.kind.isNone && p.dataType.isNone && p.description.isNone &&
    p.shown.isNone && p.aggregation.isNone

/-- The values that a record has in the fields that the patch changes. -/
def capture (p : Patch) (r : Record) : Patch where
  name := p.name.map fun _ => r.name
  kind := p.kind.map fun _ => r.kind
  dataType := p.dataType.map fun _ => r.dataType
  description := p.description.map fun _ => r.description
  shown := p.shown.map fun _ => r.shown
  aggregation := p.aggregation.map fun _ => r.aggregation?

/-- The record with the new values. -/
def apply (p : Patch) (r : Record) : Record :=
  { r with
    name := p.name.getD r.name
    kind := p.kind.getD r.kind
    dataType := p.dataType.getD r.dataType
    description := p.description.getD r.description
    shown := p.shown.getD r.shown
    aggregation? := p.aggregation.getD r.aggregation? }

/-- What a patch may change on a record: only the root is of kind root, and it stays that. -/
def allowed (p : Patch) (r : Record) : Patch :=
  let leavesRoot := r.kind = .root ∧ p.kind.any fun k => k != .root
  let becomesRoot := r.id ≠ rootId ∧ p.kind = some .root
  if leavesRoot ∨ becomesRoot then { p with kind := none } else p

theorem isEmpty_iff (p : Patch) : p.isEmpty = true ↔ p = empty := by
  obtain ⟨a, b, c, d, e, f⟩ := p
  simp [isEmpty, empty, and_assoc]

@[simp] theorem id_apply (p : Patch) (r : Record) : (p.apply r).id = r.id := rfl

@[simp] theorem children_apply (p : Patch) (r : Record) : (p.apply r).children = r.children := rfl

/-- What was captured takes the change back. -/
theorem apply_capture (p : Patch) (r : Record) : (p.capture r).apply (p.apply r) = r := by
  obtain ⟨a, b, c, d, e, f⟩ := p
  obtain ⟨id, name, kind, dataType, description, shown, children, aggregation⟩ := r
  simp only [capture, apply, Record.mk.injEq, true_and]
  refine ⟨?_, ?_, ?_, ?_, ?_, ?_⟩
  · cases a <;> rfl
  · cases b <;> rfl
  · cases c <;> rfl
  · cases d <;> rfl
  · cases e <;> rfl
  · cases f <;> rfl

end Patch

end ColumnTree.Outline
