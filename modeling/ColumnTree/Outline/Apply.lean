/-
# Edits

An edit never fails: one that makes no sense does nothing.  One that does something comes with the
command that takes it back, with the warnings it raises, and with a note if it took away a column.

When a child leaves an aggregation, the formula follows: it is made again from the columns that are
left, unless it is custom; without columns it is cleared.
-/
import ColumnTree.Formula.Recipe
import ColumnTree.Outline.Command
import ColumnTree.Outline.Tree

namespace ColumnTree.Outline

open Formula

/-! ## Warnings -/

/-- What may be amiss after an edit. -/
inductive Warning where
  /-- An aggregation has no columns left. -/
  | cleared (aggregation : String)
  /-- A custom formula may still read a column that was taken away. -/
  | stale (aggregation column : String)
  /-- No formula could be made from the columns that are left. -/
  | notMade (aggregation reason : String)
deriving DecidableEq, Repr

/-- The message of a warning. -/
def Warning.message : Warning → String
  | cleared aggregation =>
    s!"aggregation '{aggregation}' has no attributes left; its formula was cleared"
  | stale aggregation column =>
    s!"custom formula of '{aggregation}' still references removed attribute '{column}'"
  | notMade aggregation reason => s!"formula of '{aggregation}' could not be regenerated: {reason}"

namespace Aggregation

/-- An aggregation after a child has left, and the warnings; `name` is the name of its record. -/
def afterRemoval (l : Library) (name : String) (a : Aggregation) (gone : Record) :
    Aggregation × List Warning :=
  let rest := a.without gone.id
  if !rest.columns.any (·.used) then (rest.cleared, [.cleared name])
  else match generate l rest.operation rest.columns with
    | .unchanged =>
      let reads := Text.occurs (reference gone.name) rest.formula.toList
      (rest, if a.lists gone.id || reads then [.stale name gone.name] else [])
    | .valid formula compiled => ({ rest with formula, exec := compiled.exec }, [])
    | .invalid reason => (rest.cleared, [.notMade name reason])

end Aggregation

/-! ## Steps -/

/-- A list with one more item, last or at a place. -/
def insertAt (place : Option UInt64) (id : RecordId) (l : List RecordId) : List RecordId :=
  match place with
  | none => l ++ [id]
  | some i => l.take i.toNat ++ id :: l.drop i.toNat

/-- A list in which others stand in the place of an item. -/
def splice (id : RecordId) (others l : List RecordId) : List RecordId :=
  l.takeWhile (· != id) ++ others ++ (l.dropWhile (· != id)).drop 1

/-- The place of an item in a list, the end if it is not there. -/
def placeOf (id : RecordId) (l : List RecordId) : UInt64 :=
  UInt64.ofNat (l.takeWhile (· != id)).length

/-- What comes of an edit. -/
structure Outcome where
  /-- The tree after it. -/
  tree : Tree
  /-- The command that takes it back; none if nothing was done. -/
  inverse? : Option Command
  /-- The warnings. -/
  warnings : List Warning
  /-- Was a column taken away? -/
  lostColumn : Bool

namespace Outcome

/-- Nothing is done. -/
def idle (t : Tree) : Outcome := ⟨t, none, [], false⟩

/-- Something is done, without warnings. -/
def done (t : Tree) (inverse : Command) : Outcome := ⟨t, some inverse, [], false⟩

end Outcome

namespace Tree

/-- Takes a record out of the children of its parent. -/
def detach (t : Tree) (id : RecordId) : Tree :=
  match t.parent? id with
  | none => t
  | some p =>
    ⟨t.records.modify p fun r => { r with children := r.children.erase id }, t.parents.erase id⟩

/-- Puts a number among the children of a record. -/
def attach (t : Tree) (parent id : RecordId) (place : Option UInt64) : Tree :=
  ⟨t.records.modify parent fun r => { r with children := insertAt place id r.children },
    t.parents.insert id parent⟩

/-- A record may be adopted by a new one if it is there and neither the root nor on the way up from
the parent of the new one. -/
def adoptable (t : Tree) (parent child : RecordId) : Bool :=
  child != rootId && t.contains child && !t.isWithin parent child

/-- Gives children to a new record below a parent; those that may not be adopted, and those that it
has already, are passed over. -/
def adopt (parent id : RecordId) : List RecordId → List RecordId → Tree →
    Tree × List RecordId
  | [], adopted, t => (t, adopted)
  | child :: rest, adopted, t =>
    if t.adoptable parent child && !adopted.contains child then
      let t := t.detach child
      adopt parent id rest (adopted ++ [child]) { t with parents := t.parents.insert child id }
    else adopt parent id rest adopted t

/-- Puts a new record below another. -/
def add (t : Tree) (parent : RecordId) (r : Record) (place : Option UInt64) : Outcome :=
  if !t.contains parent || r.id == rootId || r.kind == .root || t.contains r.id then .idle t
  else
    let (t, children) := adopt parent r.id r.children [] t
    let t := t.attach parent r.id place
    .done { t with records := t.records.insert r.id { r.completed with children } } (.remove r.id)

/-- Enters the parent of several records in the index. -/
def reparent (parents : IdMap RecordId) (parent : RecordId) (children : List RecordId) :
    IdMap RecordId :=
  children.foldl (fun m c => m.insert c parent) parents

/-- The aggregation of a record, and what becomes of it when a child leaves; the aggregations of
records of other kinds stay as they are. -/
def followRemoval (l : Library) (gone r : Record) :
    Option (Aggregation × Aggregation × List Warning) :=
  if r.kind = .aggregation then
    r.aggregation?.map fun a => (a, a.afterRemoval l r.name gone)
  else none

/-- Takes a record away; its children go to its place. -/
def remove (l : Library) (t : Tree) (id : RecordId) : Outcome :=
  match t.parent? id, t.find? id with
  | some parent, some gone =>
    if id = rootId then .idle t
    else
      let place := placeOf id (t.children parent)
      let records := (t.records.erase id).modify parent fun r =>
        { r with children := splice id gone.children r.children }
      let parents := reparent (t.parents.erase id) parent gone.children
      let back := Command.add parent gone (some place)
      let lostColumn := gone.kind == .column
      match (records.find? parent).bind (followRemoval l gone) with
      | none => ⟨⟨records, parents⟩, some back, [], lostColumn⟩
      | some (before, after, warnings) =>
        let records := records.modify parent fun r => { r with aggregation? := some after }
        let inverse :=
          if after == before then back
          else .batch [back, .update parent (.ofAggregation (some before))]
        ⟨⟨records, parents⟩, some inverse, warnings, lostColumn⟩
  | _, _ => .idle t

/-- Changes fields of a record. -/
def update (t : Tree) (id : RecordId) (p : Patch) : Outcome :=
  match t.find? id with
  | none => .idle t
  | some r =>
    let p := p.allowed r
    if p.isEmpty then .idle t
    else .done { t with records := t.records.modify id p.apply } (.update id (p.capture r))

/-- Puts a record and all below it under another.  An aggregation no longer lists itself then. -/
def move (t : Tree) (source target : RecordId) (place : Option UInt64) : Outcome :=
  match t.parent? source with
  | none => .idle t
  | some old =>
    if source == rootId || !t.contains target || t.isWithin target source then .idle t
    else
      let back := Command.move source old (some (placeOf source (t.children old)))
      let moved := (t.detach source).attach target source place
      match (moved.find? source).bind (·.aggregation?) with
      | none => .done moved back
      | some a =>
        if a.lists source then
          let records := moved.records.modify source fun r =>
            { r with aggregation? := some (a.without source) }
          .done { moved with records } (.batch [.update source (.ofAggregation (some a)), back])
        else .done moved back

/-! ## Commands -/

/-- What comes of several edits in order; their inverses are in the order in which they have to be
applied. -/
structure Run where
  tree : Tree
  inverses : List Command
  warnings : List Warning
  lostColumn : Bool

/-- The edits of a run as one. -/
def Run.outcome (r : Run) : Outcome where
  tree := r.tree
  inverse? := if r.inverses.isEmpty then none else some (.batch r.inverses)
  warnings := r.warnings
  lostColumn := r.lostColumn

mutual

/-- Applies a command. -/
def apply (l : Library) : Command → Tree → Outcome
  | .add parent record place, t => t.add parent record place
  | .remove id, t => t.remove l id
  | .update id patch, t => t.update id patch
  | .move source target place, t => t.move source target place
  | .batch commands, t => (applyAll l commands t).outcome

/-- Applies several commands in order. -/
def applyAll (l : Library) : List Command → Tree → Run
  | [], t => ⟨t, [], [], false⟩
  | c :: rest, t =>
    let first := apply l c t
    let others := applyAll l rest first.tree
    ⟨others.tree, others.inverses ++ first.inverse?.toList, first.warnings ++ others.warnings,
      first.lostColumn || others.lostColumn⟩

end

end Tree

end ColumnTree.Outline
