/-
# What a double stands for

A `Float` is read off its bits: not a number, an infinity, or a sign with a magnitude `m * 2 ^ q`
where `m` has at most 53 bits.  Everything that must be exact about a number goes through this
reading and integer arithmetic: whether it is whole, its integer part, the remainder of a division,
and (in the modules beside this one) its decimal digits.
-/
import ColumnTree.Decimal.Power

namespace ColumnTree.Decimal

/-- The value of a double. -/
inductive Binary where
  /-- Not a number. -/
  | nan
  /-- An infinity. -/
  | infinite (negative : Bool)
  /-- The number `m * 2 ^ q`, negated if `negative`; a zero has a sign too. -/
  | finite (negative : Bool) (m : Nat) (q : Int)
deriving DecidableEq, Repr

/-- `m * 2 ^ q` rounded toward zero. -/
def wholePart (m : Nat) (q : Int) : Nat :=
  if 0 ≤ q then m * twoTo q.toNat else m / twoTo (-q).toNat

/-- Is `m * 2 ^ q` a whole number? -/
def isWhole (m : Nat) (q : Int) : Bool :=
  decide (0 ≤ q) || m % twoTo (-q).toNat == 0

namespace Binary

/-- The value with these 64 bits: a sign, eleven bits of exponent and 52 of fraction. -/
def ofBits (bits : Nat) : Binary :=
  let negative := bits / twoTo 63 % 2 == 1
  let exponent : Nat := bits / twoTo 52 % twoTo 11
  let fraction : Nat := bits % twoTo 52
  if exponent = 2047 then
    if fraction = 0 then infinite negative else nan
  else if exponent = 0 then finite negative fraction (-1074)
  else finite negative (fraction + twoTo 52) (exponent - 1075)

/-- The value of a double. -/
def of (x : Float) : Binary :=
  ofBits x.toBits.toNat

/-- The bits of `m * 2 ^ q`, for a number that a double holds exactly. -/
def toBits (negative : Bool) (m : Nat) (q : Int) : Nat :=
  let sign := if negative then twoTo 63 else 0
  if m = 0 then sign
  else
    let shift : Int := 52 - m.log2
    let q' := q - shift
    if q' < -1074 then sign + wholePart m (q + 1074)
    else sign + (q' + 1075).toNat * twoTo 52 + (wholePart m shift - twoTo 52)

/-- The number with its sign, rounded toward zero; `none` unless finite. -/
def truncated? : Binary → Option Int
  | finite negative m q =>
    let n : Int := wholePart m q
    some (if negative then -n else n)
  | _ => none

/-- The integer that the value is; `none` if it has a fraction or is not finite. -/
def integer? : Binary → Option Int
  | finite negative m q =>
    if isWhole m q then (finite negative m q).truncated? else none
  | _ => none

end Binary

/-- The double `m * 2 ^ q`, for a number that a double holds exactly. -/
def ofParts (negative : Bool) (m : Nat) (q : Int) : Float :=
  Float.ofBits (UInt64.ofNat (Binary.toBits negative m q))

/-- The integer that a double is, if it is one. -/
def integer? (x : Float) : Option Int :=
  (Binary.of x).integer?

/-- The integer part, cut to 64 bits with sign; `none` unless finite. -/
def toWord? (x : Float) : Option Int :=
  (Binary.of x).truncated?.map fun n => max (-(twoTo 63 : Int)) (min n (twoTo 63 - 1))

/-- The integer part cut to `0 ..< 2 ^ bits`, infinities at the ends and no number at zero. -/
def toUnsigned (bits : Nat) (x : Float) : Nat :=
  match Binary.of x with
  | .nan => 0
  | .infinite negative => if negative then 0 else twoTo bits - 1
  | .finite negative m q => if negative then 0 else min (wholePart m q) (twoTo bits - 1)

/-- The remainder of a division that rounds toward zero.  It is exact, and has the sign of the
dividend. -/
def remainder (x y : Float) : Float :=
  match Binary.of x, Binary.of y with
  | .finite negative m₁ q₁, .finite _ m₂ q₂ =>
    if m₂ = 0 then 0.0 / 0.0
    else
      let q := min q₁ q₂
      let a := m₁ * twoTo (q₁ - q).toNat
      let b := m₂ * twoTo (q₂ - q).toNat
      ofParts negative (a % b) q
  | .finite .., .infinite _ => x
  | _, _ => 0.0 / 0.0

end ColumnTree.Decimal
