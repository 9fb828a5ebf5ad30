/-
# Methods

Three methods change the editor: one loads a tree, one makes an edit and one takes the last edit
back.  All others only ask.  A formula that is wrong is a result, not a refusal.
-/
import ColumnTree.Outline.Editor
import ColumnTree.Outline.View
import ColumnTree.Session.Reply
import ColumnTree.Session.Request

namespace ColumnTree.Session

open Formula Outline

/-- The editor after an answer, and the answer. -/
abbrev Answered := Editor × Answer

/-- Parameters that must be there. -/
def needed {α : Type} (x : Option α) : Except Refusal α :=
  match x with
  | some a => .ok a
  | none => .error .badParams

/-- The fields of the parameters. -/
def paramFields (params : Json) : Except Refusal Fields :=
  needed params.fields?

/-! ## Methods that ask -/

/-- What the server is and can do. -/
def introduction : Json :=
  .obj [
    ("serverInfo", .obj [("name", .str "aggtree"), ("version", .str "0.1.0"),
      ("description", .str "Hierarchical attribute aggregation")]),
    ("methods", Json.strings ["tree/load", "tree/export", "tree/apply", "tree/undo",
      "tree/traverse", "tree/visible_columns",
      "formula/compile", "formula/generate", "formula/functions"])]

/-- The view of the record that the parameters name, the root if they name none. -/
def viewOf (e : Editor) (params : Json) : Except Refusal View := do
  let fields ← paramFields params
  let root ← needed (Fields.optional fields "root" Json.word?)
  let id := root.getD rootId
  match e.tree.view? id with
  | some v => return v
  | none => throw (.noRecord id)

/-- The report of a formula that compiles. -/
def reportOf (compiled : Expr) : Json :=
  .obj [("formula", .str compiled.render), ("exec", .str compiled.exec),
    ("nodes", Json.strings compiled.reads)]

/-- Compiles a formula, for an aggregation if the parameters name one. -/
def compileFormula (e : Editor) (params : Json) : Answer := do
  let fields ← paramFields params
  let text ← needed (Fields.required fields "formula" Json.text?)
  let id? ← needed (Fields.optional fields "aggregation" Json.word?)
  let result := match id? with
    | some id => e.compileFor id text
    | none => compileText e.library text
  match result with
  | .ok compiled => return reportOf compiled
  | .error fault => return fault.toJson

/-- Makes a formula from columns. -/
def generateFormula (e : Editor) (params : Json) : Answer := do
  let fields ← paramFields params
  let operation ← needed (Fields.required fields "operation" Operation.ofJson?)
  let columns ← needed (Fields.withDefault fields "attributes" [] Contribution.listOfJson?)
  return (generate e.library operation columns).toJson

/-- Lists the functions, those about one topic if the parameters name it. -/
def listFunctions (e : Editor) (params : Json) : Answer := do
  let fields ← paramFields params
  let topic? ← needed (Fields.optional fields "category" Json.text?)
  return .arr ((e.library.about topic?).map (·.toJson))

/-- The answer of a method that asks. -/
def ask (e : Editor) (method : String) (params : Json) : Answer :=
  match method with
  | "initialize" => .ok introduction
  | "initialized" | "ping" => .ok (.obj [])
  | "tree/export" => .ok (.obj [("nodes", e.tree.toJson)])
  | "tree/traverse" => do return (← viewOf e params).toJson
  | "tree/visible_columns" => do return Json.strings (← viewOf e params).visibleColumns
  | "formula/compile" => compileFormula e params
  | "formula/generate" => generateFormula e params
  | "formula/functions" => listFunctions e params
  | _ => .error (.noMethod method)

/-! ## Methods that change the editor -/

/-- The tree that the parameters hold. -/
def treeOf (params : Json) : Except Refusal Tree := do
  let fields ← paramFields params
  let records ← needed (Fields.required fields "nodes" Record.listOfJson?)
  (Tree.ofList records).mapError .noTree

/-- Loads a tree. -/
def loadTree (e : Editor) (params : Json) : Answered :=
  match treeOf params with
  | .error reason => (e, .error reason)
  | .ok t => (e.load t, .ok (.obj [("ok", .bool true), ("nodes", .nat t.size)]))

/-- The command that the parameters hold. -/
def commandOf (params : Json) : Except Refusal Command := do
  needed (Fields.required (← paramFields params) "command" Command.ofJson?)

/-- Makes an edit. -/
def applyCommand (e : Editor) (params : Json) : Answered :=
  match commandOf params with
  | .error reason => (e, .error reason)
  | .ok c =>
    let (e, warnings) := e.apply c
    (e, .ok (.obj [("warnings", Json.strings (warnings.map (·.message))),
      ("history", .nat e.log.length)]))

/-- Takes the last edit back. -/
def undoLast (e : Editor) : Answered :=
  match e.undo? with
  | none => (e, .ok (.obj [("undone", .bool false)]))
  | some e => (e, .ok (.obj [("undone", .bool true)]))

/-- The answer to a request, and the editor after it. -/
def handle (e : Editor) (r : Request) : Answered :=
  match r.method with
  | "tree/load" => loadTree e r.params
  | "tree/apply" => applyCommand e r.params
  | "tree/undo" => undoLast e
  | method => (e, ask e method r.params)

end ColumnTree.Session
