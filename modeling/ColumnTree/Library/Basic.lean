/-
# Functions and libraries of functions

A function takes any number of cells and is total: a missing argument counts as nothing.  How many
it is meant to have is only declared.

A library is a list of functions in the strict order of their names, so that a name has at most one
function.  A name that is not in the library is answered with the names that are, and with up to
five similar ones.  Similarity counts points: for a common beginning or inside, for shared letters,
and for a close length.
-/
import ColumnTree.Cell.Basic
import ColumnTree.Formula.Fault
import ColumnTree.Text.Case
import ColumnTree.Text.Pieces

namespace ColumnTree

/-- What a function is about. -/
inductive Topic where
  | math
  | string
  | date
deriving DecidableEq, Repr

/-- The name of a topic. -/
def Topic.name : Topic → String
  | math => "math"
  | string => "string"
  | date => "date"

/-- A function that formulas may call. -/
structure Routine where
  /-- The name it is called by. -/
  name : String
  /-- How many arguments it is meant to have. -/
  arity : List Nat
  /-- How a call looks. -/
  usage : String
  /-- What it does. -/
  description : String
  /-- What it is about. -/
  topic : Topic
  /-- The result for some arguments. -/
  apply : List Cell → Cell

/-- What is told about a function. -/
def Routine.toJson (f : Routine) : Json :=
  .obj [("name", .str f.name), ("description", .str f.description), ("usage", .str f.usage),
    ("arity", .arr (f.arity.map Json.nat)), ("category", .str f.topic.name)]

/-- The functions that formulas may call, in the order of their names. -/
structure Library where
  /-- The functions. -/
  routines : List Routine
  /-- Names are in strict order. -/
  sorted : routines.Pairwise fun f g => f.name < g.name

namespace Library

/-! ## Building -/

/-- Puts a function in its place; it replaces one of the same name. -/
def place (f : Routine) : List Routine → List Routine
  | [] => [f]
  | g :: rest =>
    if f.name < g.name then f :: g :: rest
    else if f.name = g.name then f :: rest
    else g :: place f rest

theorem mem_place {f h : Routine} {l : List Routine} (hm : h ∈ place f l) : h = f ∨ h ∈ l := by
  induction l with
  | nil => simpa [place] using hm
  | cons g rest ih =>
    simp only [place] at hm
    split at hm
    · simpa using hm
    · split at hm
      · rcases List.mem_cons.1 hm with h₁ | h₁ <;> simp [h₁]
      · rcases List.mem_cons.1 hm with h₁ | h₁
        · simp [h₁]
        · rcases ih h₁ with h₂ | h₂ <;> simp [h₂]

theorem name_lt_of_not_lt {a b : String} (h : ¬ a < b) (hne : a ≠ b) : b < a := by
  have hle : b ≤ a := String.not_lt.1 h
  by_cases hlt : b < a
  · exact hlt
  · exact absurd (String.le_antisymm (String.not_lt.1 hlt) hle) hne

theorem sorted_place (f : Routine) {l : List Routine}
    (hl : l.Pairwise fun f g => f.name < g.name) :
    (place f l).Pairwise fun f g => f.name < g.name := by
  induction l with
  | nil => simp [place]
  | cons g rest ih =>
    obtain ⟨hg, hrest⟩ := List.pairwise_cons.1 hl
    simp only [place]
    split
    · next hlt =>
      refine List.pairwise_cons.2 ⟨fun h hm => ?_, hl⟩
      rcases List.mem_cons.1 hm with rfl | hm
      · exact hlt
      · exact String.lt_trans hlt (hg h hm)
    · next hlt =>
      split
      · next heq => exact List.pairwise_cons.2 ⟨fun h hm => heq ▸ hg h hm, hrest⟩
      · next hne =>
        refine List.pairwise_cons.2 ⟨fun h hm => ?_, ih hrest⟩
        rcases mem_place hm with rfl | hm
        · exact name_lt_of_not_lt hlt hne
        · exact hg h hm

/-- The library without functions. -/
def empty : Library := ⟨[], .nil⟩

/-- The library with one more function, which replaces one of the same name. -/
def insert (l : Library) (f : Routine) : Library :=
  ⟨place f l.routines, sorted_place f l.sorted⟩

/-- The library of some functions, the last of each name. -/
def ofList (fs : List Routine) : Library :=
  fs.foldl insert empty

/-- The functions of a library that have one of these names. -/
def restrict (l : Library) (names : List String) : Library :=
  ⟨l.routines.filter fun f => names.contains f.name, l.sorted.filter _⟩

/-! ## Looking up -/

/-- The names, in order. -/
def names (l : Library) : List String :=
  l.routines.map (·.name)

/-- The function of a name. -/
def find? (l : Library) (name : String) : Option Routine :=
  l.routines.find? fun f => f.name == name

/-- The functions about a topic, or all of them. -/
def about (l : Library) (topic : Option String) : List Routine :=
  l.routines.filter fun f => topic.all fun t => f.topic.name == t

/-- How alike a name is to one asked for in small letters: 100 points if it begins with that, 50 if
it has that inside, 30 if that has it inside; twice the number of letters they share, if those are
more than half of the letters asked for; and, if there are points, up to five for a close length. -/
def similarity (asked name : List Char) : Nat :=
  let likeness :=
    if asked.isPrefixOf name then 100
    else if Text.occurs asked name then 50
    else if Text.occurs name asked then 30
    else 0
  let letters := asked.eraseDups
  let shared := (letters.filter name.contains).length
  let points := likeness + if letters.length < 2 * shared then 2 * shared else 0
  let size (s : List Char) : Nat := (String.ofList s).utf8ByteSize
  let apart := (size asked - size name) + (size name - size asked)
  if points = 0 then 0 else points + (5 - apart)

/-- Names in the order of their points, those of equal points in the order they had. -/
def ranked (asked : List Char) (names : List String) : List String :=
  let scored := names.filterMap fun n =>
    let p := similarity asked n.toList
    if p = 0 then none else some (n, p)
  (scored.mergeSort fun a b => b.2 ≤ a.2).map (·.1)

/-- Up to five names that are like a name that was asked for. -/
def similar (l : Library) (name : String) : List String :=
  (ranked (Text.lower name.toList) l.names).take 5

/-- The function of a name, or the fault that there is none. -/
def resolve (l : Library) (name : String) : Except Formula.Fault Routine :=
  match l.find? name with
  | some f => .ok f
  | none => .error (.unknownFunction name l.names (l.similar name))

/-- Is a function meant to have so many arguments? -/
def checkArity (l : Library) (name : String) (count : Nat) : Except Formula.Fault Unit := do
  let f ← l.resolve name
  if f.arity.contains count then return ()
  else throw (.arguments name f.arity count f.usage)

end Library

/-! ## Arguments -/

namespace Argument

/-- An argument; a missing one counts as nothing. -/
def cell (args : List Cell) (i : Nat) : Cell :=
  args[i]?.getD .null

/-- An argument as a number. -/
def number (args : List Cell) (i : Nat) : Float :=
  (cell args i).toNumber

/-- An argument as a text. -/
def text (args : List Cell) (i : Nat) : List Char :=
  (cell args i).toText.toList

/-- An argument as a date. -/
def date? (args : List Cell) (i : Nat) : Option Calendar.Moment :=
  (cell args i).toDate?

/-- An argument as an integer of 64 bits, rounded toward zero; none if it is not finite. -/
def integer? (args : List Cell) (i : Nat) : Option Int :=
  Decimal.toWord? (number args i)

/-- A view of an argument, or a default if it is missing or nothing. -/
def orDefault {α : Type} (args : List Cell) (i : Nat) (default : α) (view : Cell → α) : α :=
  match cell args i with
  | .null => default
  | c => view c

end Argument

end ColumnTree
