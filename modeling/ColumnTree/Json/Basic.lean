/-
# JSON values

A value keeps the fields of an object in the order of the text, repeated names included; `settled?`
is the value that remains when the last of several fields of one name wins.

Numbers are integers of 64 bits, with or without sign, or doubles.  A number too large for a double
is an infinity here, which no settled value contains.
-/
import ColumnTree.Decimal.Power

namespace ColumnTree

/-- A JSON value. -/
inductive Json where
  /-- The value `null`. -/
  | null
  /-- `true` or `false`. -/
  | bool (b : Bool)
  /-- A number written as an integer that 64 bits hold. -/
  | int (n : Int)
  /-- Any other number. -/
  | float (x : Float)
  /-- A text. -/
  | str (s : String)
  /-- An array. -/
  | arr (items : List Json)
  /-- An object, fields in order. -/
  | obj (fields : List (String × Json))
deriving Inhabited

namespace Json

mutual

/-- Equality of values: fields are compared in order, doubles by value. -/
def same : Json → Json → Bool
  | null, null => true
  | bool a, bool b => a == b
  | int a, int b => a == b
  | float a, float b => a == b
  | str a, str b => a == b
  | arr a, arr b => sameItems a b
  | obj a, obj b => sameFields a b
  | _, _ => false

/-- Equality of the items of two arrays. -/
def sameItems : List Json → List Json → Bool
  | [], [] => true
  | a :: as, b :: bs => same a b && sameItems as bs
  | _, _ => false

/-- Equality of the fields of two objects. -/
def sameFields : List (String × Json) → List (String × Json) → Bool
  | [], [] => true
  | (k, a) :: as, (l, b) :: bs => k == l && same a b && sameFields as bs
  | _, _ => false

end

instance : BEq Json := ⟨same⟩

/-- Keeps a field unless a later one has its name. -/
def keepLast (field : String × Json) (later : List (String × Json)) : List (String × Json) :=
  if later.any fun f => f.1 == field.1 then later else field :: later

mutual

/-- The value in which the last field of each name has won; `none` if a number is infinite. -/
def settled? : Json → Option Json
  | float x => if x.isFinite then some (float x) else none
  | arr items => (settledItems items).map arr
  | obj fields => (settledFields fields).map obj
  | j => some j

/-- The items of an array, settled. -/
def settledItems : List Json → Option (List Json)
  | [] => some []
  | j :: rest => do return (← settled? j) :: (← settledItems rest)

/-- The fields of an object, settled. -/
def settledFields : List (String × Json) → Option (List (String × Json))
  | [] => some []
  | (k, j) :: rest => do
    let v ← settled? j
    return keepLast (k, v) (← settledFields rest)

end

/-- An object without the fields that are absent. -/
def ofFields (fields : List (String × Option Json)) : Json :=
  obj (fields.filterMap fun f => f.2.map (f.1, ·))

/-- An array of texts. -/
def strings (items : List String) : Json :=
  arr (items.map str)

/-- A text, or `null`. -/
def ofText? : Option String → Json
  | some s => str s
  | none => null

/-- A natural number. -/
def nat (n : Nat) : Json :=
  int n

/-- A number of 64 bits. -/
def word (n : UInt64) : Json :=
  int n.toNat

/-! ## Taking values apart -/

/-- The text that a value is. -/
def text? : Json → Option String
  | str s => some s
  | _ => none

/-- The truth value that a value is. -/
def bool? : Json → Option Bool
  | bool b => some b
  | _ => none

/-- A natural number of 64 bits: written as an integer, not negative. -/
def word? : Json → Option UInt64
  | int n => if 0 ≤ n ∧ n < twoTo 64 then some (UInt64.ofNat n.toNat) else none
  | _ => none

/-- A finite number, as a double. -/
def number? : Json → Option Float
  | int n => some (Float.ofInt n)
  | float x => if x.isFinite then some x else none
  | _ => none

/-- The items of an array. -/
def items? : Json → Option (List Json)
  | arr items => some items
  | _ => none

/-- The fields of an object. -/
def fields? : Json → Option (List (String × Json))
  | obj fields => some fields
  | _ => none

/-- The choice that a value names: a text, or an object with the choice as its only field and
`null` in it. -/
def choice? : Json → Option String
  | str s => some s
  | obj [(s, null)] => some s
  | _ => none

end Json

/-- The fields of an object that is read as a record. -/
abbrev Fields := List (String × Json)

namespace Fields

/-- The field of a name; `none` if the object has two of that name. -/
def find? (fields : Fields) (name : String) : Option (Option Json) :=
  match fields.filter (fun f => f.1 == name) with
  | [] => some none
  | [f] => some (some f.2)
  | _ => none

/-- A field that must be there. -/
def required {α : Type} (fields : Fields) (name : String) (read : Json → Option α) :
    Option α := do
  read (← (← fields.find? name))

/-- A field with a default. -/
def withDefault {α : Type} (fields : Fields) (name : String) (default : α)
    (read : Json → Option α) : Option α := do
  match ← fields.find? name with
  | some j => read j
  | none => return default

/-- A field that may be missing or `null`. -/
def optional {α : Type} (fields : Fields) (name : String) (read : Json → Option α) :
    Option (Option α) := do
  match ← fields.find? name with
  | none | some .null => return none
  | some j => return some (← read j)

end Fields

end ColumnTree
