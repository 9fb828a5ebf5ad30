/-
# Cells in JSON

`Cell.toJson` is the stored form: dates are texts and numbers that are not finite are `null`.
`Cell.ofJson` reads any JSON value as a cell, objects as nothing; `Cell.ofStored?` refuses objects.
A text is never read as a date.
-/
import ColumnTree.Cell.Basic
import ColumnTree.Json.Basic

namespace ColumnTree.Cell

mutual

/-- The stored form of a cell. -/
def toJson : Cell → Json
  | null => .null
  | bool b => .bool b
  | number x => if x.isFinite then .float x else .null
  | text s => .str s
  | date m => .str (String.ofList m.iso)
  | list items => .arr (toJsonAll items)

/-- The stored forms of several cells. -/
def toJsonAll : List Cell → List Json
  | [] => []
  | c :: rest => toJson c :: toJsonAll rest

end

mutual

/-- The cell for a JSON value. -/
def ofJson : Json → Cell
  | .null => null
  | .bool b => bool b
  | .int n => number (Float.ofInt n)
  | .float x => number x
  | .str s => text s
  | .arr items => list (ofJsonAll items)
  | .obj _ => null

/-- The cells for several JSON values. -/
def ofJsonAll : List Json → List Cell
  | [] => []
  | j :: rest => ofJson j :: ofJsonAll rest

end

mutual

/-- The cell that is stored, unless there is an object in it. -/
def ofStored? : Json → Option Cell
  | .null => some null
  | .bool b => some (bool b)
  | .int n => some (number (Float.ofInt n))
  | .float x => some (number x)
  | .str s => some (text s)
  | .arr items => (ofStoredAll? items).map list
  | .obj _ => none

/-- The cells that are stored. -/
def ofStoredAll? : List Json → Option (List Cell)
  | [] => some []
  | j :: rest => do return (← ofStored? j) :: (← ofStoredAll? rest)

end

/-- The row of an object: the cell of the last field of a name, nothing where there is none. -/
def rowOf (fields : List (String × Json)) : Row := fun name =>
  match fields.reverse.find? fun f => f.1 == name with
  | some f => ofJson f.2
  | none => null

end ColumnTree.Cell
