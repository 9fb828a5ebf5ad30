/-
# Searching with patterns

The machine keeps a stack of threads, the one to go on with on top; a thread is an instruction, a
place in the text, and the places noted so far.  Whoever comes to an instruction at a place where
one has been before gives up, since the first one did not get to the end from there.  So there are
at most as many steps as there are pairs of instructions and places, twice over.

A search for all matches goes on behind the last one.  A match that is empty and stands at the end
of the last one does not count; the search then begins one character later.
-/
import ColumnTree.Pattern.Cost
import ColumnTree.Pattern.Program
import ColumnTree.Pattern.Reader

namespace ColumnTree.Pattern

/-- A regular expression that can be searched for. -/
structure Regex where
  /-- The program. -/
  program : Program
  /-- The number of its first instruction. -/
  start : Nat
  /-- How many places are noted: two for the match and for each group. -/
  slots : Nat
  /-- The names of groups. -/
  names : List (String × Nat)

/-- Reads a regular expression; none if it is none, or has too many levels, or is too large. -/
def Regex.read? (s : List Char) : Option Regex := do
  let (a, g, _) ← items false .initial ⟨0, []⟩ [] [] (s.length + 1) s
  if levelLimit < a.levels ∨ costLimit < a.node.cost then none
  let (program, start) := a.node.program
  return ⟨program, start, 2 * (a.node.lastGroup + 1), g.names⟩

/-- The places that a thread has noted. -/
abbrev Slots := Array (Option Nat)

/-- A thread. -/
structure Thread where
  /-- The instruction. -/
  instruction : Nat
  /-- The place in the text. -/
  place : Nat
  /-- The places noted. -/
  slots : Slots

/-- The number of a pair of an instruction and a place. -/
def Regex.pairIndex (r : Regex) (instruction place : Nat) : Nat :=
  place * r.program.size + instruction

/-- The threads that one step of a thread leads to, or the places noted if it has matched. -/
def Regex.step (r : Regex) (text : Array Char) (t : Thread) : Slots ⊕ List Thread :=
  match r.program[t.instruction]? with
  | none => .inr []
  | some .accept => .inl t.slots
  | some (.read s next) =>
    match text[t.place]? with
    | some c => .inr (if s.contains c then [⟨next, t.place + 1, t.slots⟩] else [])
    | none => .inr []
  | some (.check l next) =>
    let before := if t.place = 0 then none else text[t.place - 1]?
    .inr (if l.holds before text[t.place]? then [⟨next, t.place, t.slots⟩] else [])
  | some (.save slot next) => .inr [⟨next, t.place, t.slots.setIfInBounds slot (some t.place)⟩]
  | some (.split first second) => .inr [⟨first, t.place, t.slots⟩, ⟨second, t.place, t.slots⟩]

/-- Runs the threads of a stack until one matches.  `seen` marks the pairs of instructions and
places where one has been; `fuel` bounds the steps. -/
def Regex.run (r : Regex) (text : Array Char) (seen : Array Bool) :
    Nat → List Thread → Option Slots × Array Bool
  | 0, _ | _, [] => (none, seen)
  | fuel + 1, t :: stack =>
    let i := r.pairIndex t.instruction t.place
    if seen.getD i true then run r text seen fuel stack
    else
      let seen := seen.setIfInBounds i true
      match r.step text t with
      | .inl slots => (some slots, seen)
      | .inr threads => run r text seen fuel (threads ++ stack)

/-- The first match that begins at one of so many places from `place` on. -/
def Regex.searchFrom (r : Regex) (text : Array Char) (seen : Array Bool) (place : Nat) :
    Nat → Option Slots
  | 0 => none
  | count + 1 =>
    let fuel := 2 * seen.size + 2
    match r.run text seen fuel [⟨r.start, place, Array.replicate r.slots none⟩] with
    | (some slots, _) => some slots
    | (none, seen) => searchFrom r text seen (place + 1) count

/-- The places noted by the first match that begins at a place or later. -/
def Regex.search (r : Regex) (text : Array Char) (place : Nat) : Option Slots :=
  let seen := Array.replicate (r.program.size * (text.size + 1)) false
  r.searchFrom text seen place (text.size + 1 - place)

/-- Start and end of a group in what a match has noted; group 0 is the whole match. -/
def span? (slots : Slots) (group : Nat) : Option (Nat × Nat) := do
  return (← slots.getD (2 * group) none, ← slots.getD (2 * group + 1) none)

/-- The text between two places. -/
def slice (text : Array Char) (span : Nat × Nat) : List Char :=
  (text.extract span.1 span.2).toList

/-- The texts of the whole match and of all groups. -/
def groupTexts (text : Array Char) (slots : Slots) : List (Option (List Char)) :=
  (List.range (slots.size / 2)).map fun g => (span? slots g).map (slice text)

/-- The match to go on with from a place behind the last match. -/
def Regex.nextMatch (r : Regex) (text : Array Char) (lastEnd : Option Nat) (place : Nat) :
    Option Slots := do
  let slots ← r.search text place
  let (start, stop) ← span? slots 0
  if start = stop ∧ lastEnd = some stop then r.search text (place + 1) else return slots

/-- All matches from a place on; `fuel` bounds their number. -/
def Regex.matchesFrom (r : Regex) (text : Array Char) (lastEnd : Option Nat) (place : Nat) :
    Nat → List Slots
  | 0 => []
  | fuel + 1 =>
    match r.nextMatch text lastEnd place with
    | none => []
    | some slots =>
      match span? slots 0 with
      | some (_, stop) => slots :: matchesFrom r text (some stop) stop fuel
      | none => []

/-- All matches in a text. -/
def Regex.matches (r : Regex) (text : Array Char) : List Slots :=
  r.matchesFrom text none 0 (2 * text.size + 2)

end ColumnTree.Pattern
