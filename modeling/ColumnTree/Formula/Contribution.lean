/-
# Columns in aggregations

An aggregation has an operation and a list of columns that may take part in it.  A stored column
has an `id` and a `name`; its `weight` is 1 and it is `used` unless it says otherwise.
-/
import ColumnTree.Json.Basic
import ColumnTree.RecordId

namespace ColumnTree.Formula

/-- What an aggregation does with its columns. -/
inductive Operation where
  | sum
  | mean
  | concat
  /-- Whatever its formula says. -/
  | custom
deriving DecidableEq, Repr, Inhabited

namespace Operation

/-- The name of an operation. -/
def name : Operation → String
  | sum => "sum"
  | mean => "mean"
  | concat => "concat"
  | custom => "custom"

/-- The operation of a name. -/
def ofName? (s : String) : Option Operation :=
  [sum, mean, concat, custom].find? fun o => o.name == s

/-- The operation that is stored. -/
def ofJson? (j : Json) : Option Operation :=
  j.choice?.bind ofName?

end Operation

/-- A column that may take part in an aggregation. -/
structure Contribution where
  /-- The number of the record that is the column. -/
  id : RecordId
  /-- The name of the column. -/
  name : String
  /-- The weight in a mean. -/
  weight : Float
  /-- Does it take part? -/
  used : Bool
deriving BEq, Repr

namespace Contribution

/-- A column that takes part with weight 1. -/
def ofColumn (id : RecordId) (name : String) : Contribution :=
  ⟨id, name, 1.0, true⟩

/-- The stored form of a column. -/
def toJson (c : Contribution) : Json :=
  .obj [("id", .word c.id), ("name", .str c.name), ("weight", .float c.weight),
    ("used", .bool c.used)]

/-- The column that is stored. -/
def ofJson? (j : Json) : Option Contribution := do
  let fields ← j.fields?
  return {
    id := ← Fields.required fields "id" Json.word?
    name := ← Fields.required fields "name" Json.text?
    weight := ← Fields.withDefault fields "weight" 1.0 Json.number?
    used := ← Fields.withDefault fields "used" true Json.bool? }

/-- The columns that are stored. -/
def listOfJson? (j : Json) : Option (List Contribution) := do
  (← j.items?).mapM ofJson?

end Contribution

end ColumnTree.Formula
