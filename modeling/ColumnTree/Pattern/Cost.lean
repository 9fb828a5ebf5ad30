/-
# The size of patterns

A pattern is refused if the machine that runs it would be too large.  What counts is a machine that
reads bytes: each of its states takes 32 bytes, and each way on takes more where there are several.
-/
import ColumnTree.Pattern.Basic
import ColumnTree.Text.Encoded

namespace ColumnTree.Pattern

/-- The most bytes that the machine of a pattern may take: ten mebibytes. -/
def costLimit : Nat := 10 * 1024 * 1024

/-- How much of the second list does not begin as the first one does. -/
def newLength {α : Type} [DecidableEq α] : List α → List α → Nat
  | a :: as, b :: bs => if a = b then newLength as bs else bs.length + 1
  | _, bs => bs.length

/-- The states for the ranges of bytes of characters, where those that begin alike share states. -/
def sharedStates (before : List (Nat × Nat)) : List (List (Nat × Nat)) → Nat
  | [] => 0
  | ranges :: rest => newLength before ranges + sharedStates ranges rest

/-- How many bytes a set takes.  In ASCII it is one state; beyond, there is a state for each range
of bytes, and one at either end. -/
def CharSet.cost (s : CharSet) : Nat :=
  let n := s.bounds.size
  if s.isAscii then if n ≤ 1 then 32 else 32 + 8 * n
  else
    let pieces := Text.Runs.encoded s
    32 * (2 + sharedStates [] pieces) + 4 * pieces.length

namespace Node

/-- Is the pattern a choice? -/
def isChoice : Node → Bool
  | choice _ _ => true
  | _ => false

/-- How many bytes a pattern takes, roughly. -/
def cost : Node → Nat
  | empty | look _ => 32
  | text cs => 32 * (cs.map Char.utf8Size).sum
  | set _ s => s.cost
  | sequence a b => a.cost + b.cost
  | choice a b => a.cost + 4 + if b.isChoice then b.cost else b.cost + 68
  | repetition least none _ a =>
    max 1 least * a.cost + if least = 0 && a.canBeEmpty then 112 else 40
  | repetition least (some most) _ a => most * a.cost + 40 * (most - least) + 32
  | group _ a => a.cost + 64

end Node

end ColumnTree.Pattern
