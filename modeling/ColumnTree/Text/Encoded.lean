/-
# Characters as ranges of bytes

A run of code points, cut so that the characters of each piece are just those whose bytes in UTF-8
lie in given ranges, one range for the first byte, one for the second, and so on.
-/
import ColumnTree.Text.Runs

namespace ColumnTree.Text

/-- The bytes of a code point in UTF-8. -/
def encoded (n : Nat) : List Nat :=
  (String.utf8EncodeChar (Char.ofNat n)).map UInt8.toNat

/-- Where the first piece of a run ends, if it has to be cut: a piece has characters of one length,
and if two of them differ in a byte then all that follow this byte take every value. -/
def pieceEnd? (first last : Nat) : Option Nat :=
  ([0x7F, 0x7FF, 0xFFFF].find? fun n => first ≤ n && n < last) <|>
    [0x40, 0x1000, 0x40000].findSome? fun size =>
      if last < 0x80 ∨ first / size = last / size then none
      else if first % size ≠ 0 then some ((first / size + 1) * size - 1)
      else if last % size ≠ size - 1 then some (last / size * size - 1)
      else none

/-- The ranges of bytes of the pieces of a run. -/
def encodedRun (first last : Nat) : List (List (Nat × Nat)) :=
  match pieceEnd? first last with
  | none => [(encoded first).zip (encoded last)]
  | some n =>
    if _ : first ≤ n ∧ n < last then encodedRun first n ++ encodedRun (n + 1) last else []
termination_by last - first

/-- The ranges of bytes of all characters of a set. -/
def Runs.encoded (r : Runs) : List (List (Nat × Nat)) :=
  r.bounds.toList.flatMap fun b => encodedRun b.1 b.2

end ColumnTree.Text
