/-
# Requests

A request is a JSON object on one line: it names the protocol and a method, and may have an `id` and
parameters.  Without an `id`, or with `null` for it, it is a notification, which nobody waits for an
answer to.  No method needs parameters that are `null`; they count as none.
-/
import ColumnTree.Json.Reader

namespace ColumnTree.Session

/-- A request. -/
structure Request where
  /-- What the answer is to be known by; a notification has none. -/
  id? : Option Json
  /-- What is asked for. -/
  method : String
  /-- The parameters, an object as a rule. -/
  params : Json

namespace Request

/-- A field of a request with any value; `null` counts as missing. -/
def value? (fields : Fields) (name : String) : Option (Option Json) :=
  Fields.optional fields name Json.settled?

/-- The request in a JSON value. -/
def ofJson? (j : Json) : Option Request := do
  let fields ← j.fields?
  let _ ← Fields.required fields "jsonrpc" Json.text?
  return {
    id? := ← value? fields "id"
    method := ← Fields.required fields "method" Json.text?
    params := (← value? fields "params").getD (.obj []) }

/-- The request in a text. -/
def ofText? (s : String) : Option Request :=
  (Json.parse? s).bind ofJson?

end Request

end ColumnTree.Session
