/-
# The editor

An editor is a tree with the log of the edits made to it.  Each entry of the log holds a command and
the one that takes it back; taking back is not itself an edit.  A column that was taken away cannot
be brought back, so that the log is empty after that.
-/
import ColumnTree.Outline.Apply
import ColumnTree.Outline.Load

namespace ColumnTree.Outline

open Formula

/-- An edit that was made. -/
structure LogEntry where
  /-- The edit. -/
  forward : Command
  /-- The edit that takes it back. -/
  inverse : Command

/-- The stored form of an entry. -/
def LogEntry.toJson (e : LogEntry) : Json :=
  .obj [("forward", e.forward.toJson), ("inverse", e.inverse.toJson)]

/-- A tree, the edits made to it, and the functions its formulas may call. -/
structure Editor where
  /-- The tree. -/
  tree : Tree
  /-- The edits made, the last one first. -/
  log : List LogEntry
  /-- The functions. -/
  library : Library

namespace Editor

/-- An editor of a tree, without edits. -/
def ofTree (l : Library) (t : Tree) : Editor := ⟨t, [], l⟩

/-- The editor with another tree, without edits. -/
def load (e : Editor) (t : Tree) : Editor := ofTree e.library t

/-- Makes an edit. -/
def apply (e : Editor) (c : Command) : Editor × List Warning :=
  let o := e.tree.apply e.library c
  let log :=
    if o.lostColumn then []
    else match o.inverse? with
      | none => e.log
      | some inverse => ⟨c, inverse⟩ :: e.log
  ({ e with tree := o.tree, log }, o.warnings)

/-- Makes an edit that is not logged. -/
def replay (e : Editor) (c : Command) : Editor × List Warning :=
  let o := e.tree.apply e.library c
  ({ e with tree := o.tree }, o.warnings)

/-- Takes back the last edit, if there is one. -/
def undo? (e : Editor) : Option Editor :=
  match e.log with
  | [] => none
  | last :: log => some (({ e with log }).replay last.inverse).1

/-! ## Formulas by hand -/

/-- The compiled formula of a text, for an aggregation. -/
def compileFor (e : Editor) (id : RecordId) (text : String) : Except Fault Expr :=
  match e.tree.find? id with
  | none => .error (.noRecord id)
  | some r =>
    if r.kind = .aggregation then compileScoped e.library (e.tree.childNames id) text
    else .error (.noAggregation id)

/-- A child as a column that takes part; it keeps the weight that it had. -/
def contributionOf (before : List Contribution) (r : Record) : Contribution :=
  match before.find? fun c => c.id == r.id with
  | some c => { c with name := r.name, used := true }
  | none => .ofColumn r.id r.name

/-- The aggregation that a formula written by hand makes, out of the one before. -/
def byHand (before : Aggregation) (children : List Record) (text : String) (compiled : Expr) :
    Aggregation where
  operation := .custom
  formula := text
  exec := compiled.exec
  columns := (children.filter fun r => compiled.reads.contains r.name).map
    (contributionOf before.columns)

/-- Gives an aggregation a formula that is written by hand. -/
def setFormula (e : Editor) (id : RecordId) (text : String) :
    Except Fault (Editor × List Warning) := do
  let compiled ← e.compileFor id text
  let before := ((e.tree.find? id).bind (·.aggregation?)).getD .standard
  let after := byHand before (e.tree.childRecords id) text compiled
  return e.apply (.update id (.ofAggregation (some after)))

end Editor

end ColumnTree.Outline
