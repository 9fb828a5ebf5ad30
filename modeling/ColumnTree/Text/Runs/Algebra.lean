/-
# The algebra of sets of characters

Union, complement, and the operations that are built from these two.

Whatever they give is ascending and apart, and holds no surrogate, since a surrogate is no
character.  So two of these sets with the same characters are equal, however they were made.
-/
import ColumnTree.Text.Runs

namespace ColumnTree.Text.Runs

/-- Runs that ascend with their first places, those that overlap or touch made one.  The run from
`first` to `last` comes before them and may still grow. -/
def fuseFrom (first last : Nat) : List (Nat × Nat) → List (Nat × Nat)
  | [] => [(first, last)]
  | (a, b) :: rest =>
    if a ≤ last + 1 then fuseFrom first (max last b) rest
    else (first, last) :: fuseFrom a b rest

/-- Runs that ascend with their first places, those that overlap or touch made one. -/
def fuse : List (Nat × Nat) → List (Nat × Nat)
  | [] => []
  | (a, b) :: rest => fuseFrom a b rest

/-- The code points from `next` on that are in none of the runs. -/
def gaps (next : Nat) : List (Nat × Nat) → List (Nat × Nat)
  | [] => if next ≤ 0x10FFFF then [(next, 0x10FFFF)] else []
  | (a, b) :: rest =>
    if next < a then (next, a - 1) :: gaps (b + 1) rest else gaps (b + 1) rest

/-- Two lists of runs as one, ascending with their first places. -/
def interleave (a b : List (Nat × Nat)) : List (Nat × Nat) :=
  a.merge b fun r s => r.1 ≤ s.1

/-- The empty set. -/
def empty : Runs := ⟨#[]⟩

/-- Has the set no characters? -/
def isEmpty (a : Runs) : Bool :=
  a.bounds.isEmpty

/-- The characters from one to another: those below the surrogates, and those above them. -/
def range (first last : Char) : Runs :=
  let below := (first.toNat, min last.toNat 0xD7FF)
  let above := (max first.toNat 0xE000, last.toNat)
  ⟨([below, above].filter fun r => r.1 ≤ r.2).toArray⟩

/-- The set of one character. -/
def single (c : Char) : Runs := range c c

/-- The characters with these code points. -/
def ofCodes (codes : List Nat) : Runs :=
  ⟨(fuse ((codes.mergeSort fun a b => a ≤ b).map fun n => (n, n))).toArray⟩

/-- The characters of either set. -/
def union (a b : Runs) : Runs :=
  ⟨(fuse (interleave a.bounds.toList b.bounds.toList)).toArray⟩

/-- The characters that are not in the set. -/
def complement (a : Runs) : Runs :=
  ⟨(gaps 0 (interleave a.bounds.toList [(0xD800, 0xDFFF)])).toArray⟩

/-- The set of all characters. -/
def full : Runs := complement empty

/-- The characters of both sets. -/
def intersection (a b : Runs) : Runs :=
  complement (union (complement a) (complement b))

/-- The characters of the first set that are not in the second one. -/
def difference (a b : Runs) : Runs :=
  intersection a (complement b)

/-- The characters of exactly one of the sets. -/
def symmetricDifference (a b : Runs) : Runs :=
  difference (union a b) (intersection a b)

/-- The union of some sets. -/
def unionAll (sets : List Runs) : Runs :=
  sets.foldr union empty

/-- The only character of a set that has no other. -/
def only? (a : Runs) : Option Char :=
  match a.bounds.toList with
  | [(first, last)] => if first = last then some (Char.ofNat first) else none
  | _ => none

/-- Are all characters of the set in ASCII? -/
def isAscii (a : Runs) : Bool :=
  a.bounds.all fun r => r.2 < 0x80

end ColumnTree.Text.Runs
