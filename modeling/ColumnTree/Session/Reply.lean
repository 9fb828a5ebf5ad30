/-
# Replies

A reply has either a result or a reason why there is none.  The reply to a text that is no request
has no `id`.
-/
import ColumnTree.Outline.Load

namespace ColumnTree.Session

open Outline

/-- Why a request has no result. -/
inductive Refusal where
  /-- The text is no request. -/
  | noRequest
  /-- There is no such method. -/
  | noMethod (name : String)
  /-- The parameters are not those of the method. -/
  | badParams
  /-- The records are no tree. -/
  | noTree (fault : LoadFault)
  /-- There is no such record. -/
  | noRecord (id : RecordId)
deriving DecidableEq, Repr

namespace Refusal

/-- The number that stands for a reason. -/
def code : Refusal → Int
  | noRequest => -32700
  | noMethod _ => -32601
  | badParams | noTree _ | noRecord _ => -32602

/-- The message of a reason. -/
def message : Refusal → String
  | noRequest => "Parse error"
  | noMethod name => s!"Method not found: {name}"
  | badParams => "Invalid params"
  | noTree fault => fault.message
  | noRecord id => s!"Unknown node: {id}"

/-- The stored form of a reason. -/
def toJson (r : Refusal) : Json :=
  .obj [("code", .int r.code), ("message", .str r.message)]

end Refusal

/-- A result, or the reason why there is none. -/
abbrev Answer := Except Refusal Json

/-- An answer on its way. -/
structure Reply where
  /-- The `id` of the request. -/
  id? : Option Json
  /-- The answer. -/
  answer : Answer

/-- The text of a reply is that of this value. -/
def Reply.toJson (r : Reply) : Json :=
  match r.answer with
  | .ok result =>
    Json.ofFields [("jsonrpc", some (.str "2.0")), ("id", r.id?), ("result", some result)]
  | .error reason =>
    Json.ofFields [("jsonrpc", some (.str "2.0")), ("id", r.id?), ("error", some reason.toJson)]

end ColumnTree.Session
