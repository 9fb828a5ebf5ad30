/-
# The fewest decimal digits that read back

A double stands for all reals that are nearer to it than to its neighbours; its shortest decimal is
the one with the fewest digits among them, and of two equally short ones the nearer.  A `Tie` says
which one is taken where both are equally near: 1125899906842624.25 lies halfway between the two
decimals of 17 digits that read back as it.

`shortest` tests the grids of one, two, … seventeen significant digits.  On each grid only the two
neighbours of the value need be looked at: a grid point in the interval around the value lies on
one side of it, and then the neighbour on that side is in the interval too.  All comparisons are
between integers.
-/
import ColumnTree.Decimal.Binary

namespace ColumnTree.Decimal

/-- The number `digits * 10 ^ exponent`. -/
structure Scaled where
  /-- The significant digits, as one number. -/
  digits : Nat
  /-- The power of ten of the last digit. -/
  exponent : Int
deriving DecidableEq, Repr

/-- The number without its trailing zeros, at most `fuel` of them. -/
def Scaled.stripped : Nat → Scaled → Scaled
  | 0, s => s
  | fuel + 1, s =>
    if s.digits ≠ 0 ∧ s.digits % 10 = 0 then stripped fuel ⟨s.digits / 10, s.exponent + 1⟩ else s

/-- Numerator and denominator of `2 ^ q / 10 ^ p`. -/
def ratio (q p : Int) : Nat × Nat :=
  (twoTo q.toNat * tenTo (-p).toNat, twoTo (-q).toNat * tenTo p.toNat)

/-- Is `10 ^ p ≤ m * 2 ^ q`? -/
def reaches (m : Nat) (q p : Int) : Bool :=
  let (a, b) := ratio q p
  b ≤ m * a

/-- The exponent of the leading decimal digit of `m * 2 ^ q`, for `m` above zero.  The estimate
takes 1233 / 4096 for the logarithm of 2 and is at most one away from the answer. -/
def decade (m : Nat) (q : Int) : Int :=
  let estimate := (m.log2 + q) * 1233 / 4096
  if reaches m q (estimate + 1) then estimate + 1
  else if reaches m q estimate then estimate
  else estimate - 1

/-- Which of two equally near decimals is taken. -/
inductive Tie where
  /-- The larger one. -/
  | up
  /-- The one whose last digit is even. -/
  | even
deriving DecidableEq, Repr

/-- Is the smaller one of two equally near decimals taken, `below` being its digits? -/
def Tie.isDown (tie : Tie) (below : Nat) : Bool :=
  match tie with
  | up => false
  | even => below % 2 == 0

/-- The grid points of `10 ^ p` on either side of `m * 2 ^ q` that read back as that double, the
nearer one if both do.  `narrow` says that the double below is only half as far as the one above. -/
def onGrid (tie : Tie) (m : Nat) (q p : Int) (narrow : Bool) : Option Nat :=
  let (a, b) := ratio (q - 2) p
  let value := 4 * m * a
  let low := (4 * m - (if narrow then 1 else 2)) * a
  let high := (4 * m + 2) * a
  let below := value / b
  let above := below + 1
  let even := m % 2 == 0
  let belowIn := if even then low ≤ below * b else low < below * b
  let aboveIn := if even then above * b ≤ high else above * b < high
  if belowIn && aboveIn then
    let down := value - below * b
    let up := above * b - value
    some (if down < up || (down == up && tie.isDown below) then below else above)
  else if belowIn then some below
  else if aboveIn then some above
  else none

/-- The first grid with a point that reads back, from `n` significant digits on. -/
def firstGrid (tie : Tie) (m : Nat) (q top : Int) (narrow : Bool) : Nat → Nat → Scaled
  | 0, n => ⟨m, top - n⟩
  | fuel + 1, n =>
    let p := top - n + 1
    match onGrid tie m q p narrow with
    | some k => ⟨k, p⟩
    | none => firstGrid tie m q top narrow fuel (n + 1)

/-- The shortest decimal that reads back as the double `m * 2 ^ q`. -/
def shortest (tie : Tie) (m : Nat) (q : Int) : Scaled :=
  if m = 0 then ⟨0, 0⟩
  else
    let narrow := m == twoTo 52 && q > -1074
    (firstGrid tie m q (decade m q) narrow 17 1).stripped 20

/-- The value `m * 2 ^ q` rounded to `places` significant digits, a tie to the even digit. -/
def significant (places m : Nat) (q : Int) : Scaled :=
  if m = 0 then ⟨0, 0⟩
  else
    let p := decade m q - places + 1
    let (a, b) := ratio q p
    let below := m * a / b
    let rest := m * a % b
    let up := 2 * rest > b || (2 * rest == b && below % 2 == 1)
    let k := if up then below + 1 else below
    if k = tenTo places then ⟨k / 10, p + 1⟩ else ⟨k, p⟩

end ColumnTree.Decimal
