/-
# Sets of characters as runs of code points

A property of characters that has no short rule is kept as a table: the runs of consecutive code
points that have it, ascending and apart, looked up by bisection.

The tables are written as text.  `numerals` reads numbers in base 36 that are set apart by blanks;
`Runs.decode` takes them two at a time, the gap since the end of the run before and the length of
the run less one.
-/

namespace ColumnTree.Text

/-- The value of a digit in base 36; other characters count as no digit. -/
def digit36? (c : Char) : Option Nat :=
  if '0' ≤ c && c ≤ '9' then some (c.toNat - '0'.toNat)
  else if 'a' ≤ c && c ≤ 'z' then some (c.toNat - 'a'.toNat + 10)
  else none

/-- The numbers of a table text, in order.  `pending` is the number being read. -/
def numerals : List Char → Option Nat → List Nat
  | [], pending => pending.toList
  | c :: cs, pending =>
    match digit36? c with
    | some d => numerals cs (some (pending.getD 0 * 36 + d))
    | none => pending.toList ++ numerals cs none

/-- A set of characters, as ascending runs `(first, last)`. -/
structure Runs where
  /-- First and last code point of each run. -/
  bounds : Array (Nat × Nat)
deriving DecidableEq

namespace Runs

/-- The runs that a list of gaps and lengths describes, the next code point being `next`. -/
def ofSteps (next : Nat) : List Nat → List (Nat × Nat)
  | gap :: more :: rest =>
    let first := next + gap
    (first, first + more) :: ofSteps (first + more + 1) rest
  | _ => []

/-- The table that a table text describes. -/
def decode (text : String) : Runs :=
  ⟨(ofSteps 0 (numerals text.toList none)).toArray⟩

/-- Bisection: does a run with an index in `lo ..< hi` hold the code point `n`? -/
def bisect (bounds : Array (Nat × Nat)) (n lo hi : Nat) : Bool :=
  if _ : lo < hi then
    let mid := (lo + hi) / 2
    let (first, last) := bounds.getD mid (0, 0)
    if n < first then bisect bounds n lo mid
    else if last < n then bisect bounds n (mid + 1) hi
    else true
  else false
termination_by hi - lo

/-- Is the code point in one of the runs? -/
def containsCode (r : Runs) (n : Nat) : Bool :=
  bisect r.bounds n 0 r.bounds.size

/-- Is the character in the set? -/
def contains (r : Runs) (c : Char) : Bool :=
  r.containsCode c.toNat

end Runs

end ColumnTree.Text
