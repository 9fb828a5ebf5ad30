/-
# The outline

An outline is a tree of records by number.  The lists of children make the tree; beside them stands
an index from each record to its parent, so that the way up is walked without a search.

`isWithin` walks up as many steps as the index has entries, and one more; in a tree that is enough.
-/
import ColumnTree.Outline.IdMap
import ColumnTree.Outline.Record

namespace ColumnTree.Outline

/-- A tree of records. -/
structure Tree where
  /-- The records. -/
  records : IdMap Record
  /-- The parent of each record that has one. -/
  parents : IdMap RecordId

namespace Tree

/-- The tree of a root alone. -/
def alone (name : String) : Tree :=
  ⟨IdMap.empty.insert rootId (Record.root name), .empty⟩

/-! ## Questions -/

/-- The record of a number. -/
def find? (t : Tree) (id : RecordId) : Option Record :=
  t.records.find? id

/-- Is there a record of this number? -/
def contains (t : Tree) (id : RecordId) : Bool :=
  t.records.contains id

/-- The records in the order of their numbers. -/
def toList (t : Tree) : List Record :=
  t.records.values

/-- How many records there are. -/
def size (t : Tree) : Nat :=
  t.records.size

/-- The parent of a record. -/
def parent? (t : Tree) (id : RecordId) : Option RecordId :=
  t.parents.find? id

/-- The children of a record, in order. -/
def children (t : Tree) (id : RecordId) : List RecordId :=
  (t.find? id).elim [] (·.children)

/-- The records of the children, in order. -/
def childRecords (t : Tree) (id : RecordId) : List Record :=
  (t.children id).filterMap t.find?

/-- The names of the children: the columns that a formula of the record may read. -/
def childNames (t : Tree) (id : RecordId) : List String :=
  (t.childRecords id).map (·.name)

/-- The first record with a name. -/
def named? (t : Tree) (name : String) : Option Record :=
  t.toList.find? fun r => r.name == name

/-- The number after the greatest one in use; after the last number of all it is 0. -/
def nextId (t : Tree) : RecordId :=
  t.records.keys.getLast?.elim 1 (· + 1)

/-! ## The way up -/

/-- Is `ancestor` on the way up from a record?  Nothing is known when the steps do not suffice. -/
def meets? (parents : IdMap RecordId) (ancestor : RecordId) : Nat → RecordId → Option Bool
  | 0, _ => none
  | steps + 1, id =>
    if id = ancestor then some true
    else match parents.find? id with
      | none => some false
      | some p => meets? parents ancestor steps p

/-- The end of the way up from a record.  Nothing is known when the steps do not suffice. -/
def top? (parents : IdMap RecordId) : Nat → RecordId → Option RecordId
  | 0, _ => none
  | steps + 1, id =>
    match parents.find? id with
    | none => some id
    | some p => top? parents steps p

/-- Is a record the ancestor or below it? -/
def isWithin (t : Tree) (id ancestor : RecordId) : Bool :=
  (meets? t.parents ancestor (t.parents.size + 1) id).getD false

end Tree

end ColumnTree.Outline
