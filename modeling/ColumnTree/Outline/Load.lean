/-
# Trees from records

A list of records is a tree if its numbers differ, only the record numbered 0 is of kind root, each
child that is listed exists and is listed once, and every record is below the root.  Of several
faults the first one is reported: those of single records in the order of the list, then a missing
root, then those of children in the order of numbers, then those of the way up.
-/
import ColumnTree.Json.Printer
import ColumnTree.Json.Reader
import ColumnTree.Outline.Stored
import ColumnTree.Outline.Tree

namespace ColumnTree.Outline

/-- Why records are no tree. -/
inductive LoadFault where
  | missingRoot
  /-- A record of kind root whose number is not 0. -/
  | extraRoot (id : RecordId)
  | duplicateId (id : RecordId)
  /-- A child that is not there. -/
  | danglingChild (parent child : RecordId)
  | rootHasParent (id : RecordId)
  /-- A child that is listed twice. -/
  | manyParents (child first second : RecordId)
  /-- A way up that never ends. -/
  | cycle (id : RecordId)
  /-- A way up that ends below no root. -/
  | unreachable (id : RecordId)
deriving DecidableEq, Repr

namespace LoadFault

/-- The name of the kind of a fault. -/
def kind : LoadFault → String
  | missingRoot => "MissingRoot"
  | extraRoot _ => "ExtraRoot"
  | duplicateId _ => "DuplicateId"
  | danglingChild .. => "DanglingChild"
  | rootHasParent _ => "RootHasParent"
  | manyParents .. => "MultipleParents"
  | cycle _ => "Cycle"
  | unreachable _ => "Unreachable"

/-- The message of a fault. -/
def message : LoadFault → String
  | missingRoot => "hierarchy has no root node with id 0"
  | extraRoot id => s!"node {id} has type root but only id 0 may be the root"
  | duplicateId id => s!"duplicate node id {id}"
  | danglingChild parent child => s!"node {parent} lists unknown child {child}"
  | rootHasParent id => s!"root node cannot be the child of node {id}"
  | manyParents child first second =>
    s!"node {child} has more than one parent ({first} and {second})"
  | cycle id => s!"node {id} is part of a cycle"
  | unreachable id => s!"node {id} is not reachable from the root"

end LoadFault

namespace Tree

/-- Enters a record among those before it. -/
def enter (records : IdMap Record) (r : Record) : Except LoadFault (IdMap Record) :=
  if r.kind = .root ∧ r.id ≠ rootId then .error (.extraRoot r.id)
  else if records.contains r.id then .error (.duplicateId r.id)
  else .ok (records.insert r.id r)

/-- The links from records to their children, in the order of the parents. -/
def links (records : IdMap Record) : List (RecordId × RecordId) :=
  records.entries.flatMap fun e => e.2.children.map (e.1, ·)

/-- Enters a link in the index of parents. -/
def link (records : IdMap Record) (parents : IdMap RecordId) (l : RecordId × RecordId) :
    Except LoadFault (IdMap RecordId) :=
  if !records.contains l.2 then .error (.danglingChild l.1 l.2)
  else if l.2 = rootId then .error (.rootHasParent l.1)
  else match parents.find? l.2 with
    | some first => .error (.manyParents l.2 first l.1)
    | none => .ok (parents.insert l.2 l.1)

/-- Counts the records that a walk down comes by: it takes a record off the front of a queue and puts
its children at the end.  Nothing is kept of where the walk has been, so that it could go round a cycle
for ever; a walk that is to take off more records than there are is given up, and the count is `none`
then. -/
def countDown (records : IdMap Record) (queue : List RecordId) (seen : Nat) : Option Nat :=
  match queue with
  | [] => some seen
  | id :: rest =>
    if seen < records.size then
      countDown records (rest ++ (records.find? id).elim [] (·.children)) (seen + 1)
    else none
termination_by records.size - seen

/-- Does the way up from a record end at the root?  A way longer than there are records is a
cycle. -/
def checkTop (records : IdMap Record) (parents : IdMap RecordId) (id : RecordId) :
    Except LoadFault Unit :=
  match top? parents (records.size + 1) id with
  | none => .error (.cycle id)
  | some top => if top = rootId then .ok () else .error (.unreachable id)

/-- The index of parents of records that are a tree.  If the walk down from the root does not come by
as many records as there are, the ways up are searched for the fault. -/
def parentsOf (records : IdMap Record) : Except LoadFault (IdMap RecordId) := do
  if !(records.find? rootId).any fun r => r.kind = .root then throw .missingRoot
  let parents ← (links records).foldlM (link records) .empty
  if countDown records [rootId] 0 != some records.size then
    (records.keys.filter (· != rootId)).forM (checkTop records parents)
  return parents

/-- The tree of some records. -/
def ofList (rs : List Record) : Except LoadFault Tree := do
  let records ← rs.foldlM enter .empty
  return ⟨records, ← parentsOf records⟩

/-- What is wrong with a tree, if anything is. -/
def check (t : Tree) : Except LoadFault Unit := do
  let _ ← parentsOf t.records
  return ()

/-! ## Trees in JSON -/

/-- The stored form of a tree: its records in the order of their numbers. -/
def toJson (t : Tree) : Json :=
  .arr (t.toList.map (·.toJson))

/-- The tree in a JSON text; `none` if the text is no list of records. -/
def ofText? (s : String) : Option (Except LoadFault Tree) := do
  let j ← Json.parse? s
  return ofList (← Record.listOfJson? j)

end Tree

end ColumnTree.Outline
