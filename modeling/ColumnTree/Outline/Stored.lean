/-
# Records, patches and commands in JSON

Each has a stored form that reads back as the same value, except for weights that are not finite.
A record without an aggregation is stored with an empty object in its place; on reading, `null` and
a missing field mean the same.  In a patch the field is missing if nothing is to change and `null`
if the aggregation is to be taken away.  A command names its kind in the field `change`.
-/
import ColumnTree.Outline.Command

namespace ColumnTree.Outline

open Formula

/-! ## Kinds of records and of values -/

namespace Kind

/-- The name of a kind. -/
def name : Kind → String
  | root => "root"
  | column => "attribute"
  | aggregation => "aggregation"

/-- The kind of a name. -/
def ofName? (s : String) : Option Kind :=
  [root, column, aggregation].find? fun k => k.name == s

/-- The kind that is stored. -/
def ofJson? (j : Json) : Option Kind :=
  j.choice?.bind ofName?

end Kind

namespace DataType

/-- The name of a type of values. -/
def name : DataType → String
  | number => "number"
  | text => "text"
  | date => "date"
  | unknown => "unknown"
  | none => "none"

/-- The type of a name. -/
def ofName? (s : String) : Option DataType :=
  [number, text, date, unknown, none].find? fun t => t.name == s

/-- The type that is stored. -/
def ofJson? (j : Json) : Option DataType :=
  j.choice?.bind ofName?

end DataType

/-! ## Aggregations -/

namespace Aggregation

/-- The stored form of an aggregation. -/
def toJson (a : Aggregation) : Json :=
  .obj [("operation", .str a.operation.name), ("formula", .str a.formula), ("exec", .str a.exec),
    ("usedAttributes", .arr (a.columns.map (·.toJson)))]

/-- The aggregation that is stored. -/
def ofJson? (j : Json) : Option Aggregation := do
  let fields ← j.fields?
  return {
    operation := ← Fields.withDefault fields "operation" .concat Operation.ofJson?
    formula := ← Fields.withDefault fields "formula" "" Json.text?
    exec := ← Fields.withDefault fields "exec" "" Json.text?
    columns := ← Fields.withDefault fields "usedAttributes" [] Contribution.listOfJson? }

/-- The aggregation that is stored in a place where there may be none. -/
def optionalOfJson? (j : Json) : Option (Option Aggregation) := do
  match ← j.settled? with
  | .null => return none
  | .obj [] => return none
  | j => return some (← ofJson? j)

end Aggregation

/-! ## Records -/

/-- The numbers that are stored in a list. -/
def idsOfJson? (j : Json) : Option (List RecordId) := do
  (← j.items?).mapM Json.word?

namespace Record

/-- The stored form of a record. -/
def toJson (r : Record) : Json :=
  .obj [("id", .word r.id), ("name", .str r.name), ("type", .str r.kind.name),
    ("dtype", .str r.dataType.name), ("desc", .str r.description), ("isShown", .bool r.shown),
    ("related", .arr (r.children.map Json.word)),
    ("info", r.aggregation?.elim (.obj []) (·.toJson))]

/-- The record that is stored. -/
def ofJson? (j : Json) : Option Record := do
  let fields ← j.fields?
  return {
    id := ← Fields.required fields "id" Json.word?
    name := ← Fields.required fields "name" Json.text?
    kind := ← Fields.required fields "type" Kind.ofJson?
    dataType := ← Fields.withDefault fields "dtype" .unknown DataType.ofJson?
    description := ← Fields.withDefault fields "desc" "" Json.text?
    shown := ← Fields.withDefault fields "isShown" true Json.bool?
    children := ← Fields.withDefault fields "related" [] idsOfJson?
    aggregation? := ← Fields.withDefault fields "info" none Aggregation.optionalOfJson? }

/-- The records that are stored in a list. -/
def listOfJson? (j : Json) : Option (List Record) := do
  (← j.items?).mapM ofJson?

end Record

/-! ## Patches -/

namespace Patch

/-- The stored form of a patch. -/
def toJson (p : Patch) : Json :=
  Json.ofFields [("name", p.name.map .str), ("type", p.kind.map fun k => .str k.name),
    ("dtype", p.dataType.map fun t => .str t.name), ("desc", p.description.map .str),
    ("isShown", p.shown.map .bool),
    ("info", p.aggregation.map fun a => a.elim .null (·.toJson))]

/-- The patch that is stored. -/
def ofJson? (j : Json) : Option Patch := do
  let fields ← j.fields?
  return {
    name := ← Fields.optional fields "name" Json.text?
    kind := ← Fields.optional fields "type" Kind.ofJson?
    dataType := ← Fields.optional fields "dtype" DataType.ofJson?
    description := ← Fields.optional fields "desc" Json.text?
    shown := ← Fields.optional fields "isShown" Json.bool?
    aggregation := ← Fields.withDefault fields "info" none fun j => do
      return some (← Aggregation.optionalOfJson? j) }

end Patch

/-! ## Commands -/

namespace Command

mutual

/-- The stored form of a command. -/
def toJson : Command → Json
  | add parent record place =>
    Json.ofFields [("change", some (.str "addNode")), ("parent", some (.word parent)),
      ("node", some record.toJson), ("index", place.map .word)]
  | remove id => .obj [("change", .str "removeNode"), ("id", .word id)]
  | update id patch =>
    .obj [("change", .str "updateNode"), ("id", .word id), ("patch", patch.toJson)]
  | move source target place =>
    Json.ofFields [("change", some (.str "relationshipNode")), ("source", some (.word source)),
      ("target", some (.word target)), ("index", place.map .word)]
  | batch commands => .obj [("change", .str "batch"), ("commands", .arr (toJsonAll commands))]

/-- The stored forms of several commands. -/
def toJsonAll : List Command → List Json
  | [] => []
  | c :: rest => toJson c :: toJsonAll rest

end

/-- A command of a named kind that holds no others; a move has two names. -/
def single? (kind : String) (fields : Fields) : Option Command := do
  match kind with
  | "addNode" =>
    return add (← Fields.required fields "parent" Json.word?)
      (← Fields.required fields "node" Record.ofJson?)
      (← Fields.optional fields "index" Json.word?)
  | "removeNode" => return remove (← Fields.required fields "id" Json.word?)
  | "updateNode" =>
    return update (← Fields.required fields "id" Json.word?)
      (← Fields.required fields "patch" Patch.ofJson?)
  | "relationshipNode" | "moveNode" =>
    return move (← Fields.required fields "source" Json.word?)
      (← Fields.required fields "target" Json.word?)
      (← Fields.optional fields "index" Json.word?)
  | _ => none

mutual

/-- The command that is stored. -/
def ofJson? : Json → Option Command
  | .obj fields => do
    let kind ← Fields.required fields "change" Json.text?
    if kind = "batch" then
      let commands ← commands? fields
      return batch commands
    else single? kind fields
  | _ => none

/-- The commands in the fields of a stored batch. -/
def commands? : List (String × Json) → Option (List Command)
  | [] => none
  | (name, j) :: rest => if name = "commands" then list? j else commands? rest

/-- A list of stored commands. -/
def list? : Json → Option (List Command)
  | .arr items => items? items
  | _ => none

/-- The items of a list of stored commands. -/
def items? : List Json → Option (List Command)
  | [] => some []
  | j :: rest => do return (← ofJson? j) :: (← items? rest)

end

end Command

end ColumnTree.Outline
