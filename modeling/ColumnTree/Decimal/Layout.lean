/-
# How decimal digits are set out

`Scaled` numbers are written either positionally or with one digit before the point and an
exponent.  A `Layout` says which of the two is used, by the place of the point, whether a whole
number keeps a fraction `.0`, and which of two equally near decimals is written.
-/
import ColumnTree.Decimal.Shortest

namespace ColumnTree.Decimal

/-- The decimal digits of a number. -/
def digitsOf (n : Nat) : List Char :=
  Nat.toDigits 10 n

/-- The choices of one way to write numbers. -/
structure Layout where
  /-- Is a number written positionally whose point stands after this many of its digits? -/
  isPositional : Int → Bool
  /-- What ends a whole number written positionally. -/
  wholeEnding : List Char
  /-- Which of two equally near decimals is written. -/
  tie : Tie

namespace Layout

/-- One digit, a point if more digits follow, and the exponent. -/
def scientific (s : Scaled) : List Char :=
  match digitsOf s.digits with
  | [] => []
  | d :: ds =>
    let exponent : Int := s.exponent + ds.length
    d :: (if ds.isEmpty then [] else '.' :: ds) ++ 'e' :: (toString exponent).toList

/-- All digits with the point in its place, and zeros up to it. -/
def positional (ending : List Char) (s : Scaled) : List Char :=
  let ds := digitsOf s.digits
  let point : Int := ds.length + s.exponent
  if 0 ≤ s.exponent then ds ++ List.replicate s.exponent.toNat '0' ++ ending
  else if 0 < point then ds.take point.toNat ++ '.' :: ds.drop point.toNat
  else '0' :: '.' :: List.replicate (-point).toNat '0' ++ ds

/-- The text of a magnitude. -/
def write (l : Layout) (s : Scaled) : List Char :=
  if l.isPositional ((digitsOf s.digits).length + s.exponent) then positional l.wholeEnding s
  else scientific s

/-- Every number positionally, whole numbers without a point. -/
def plain : Layout := ⟨fun _ => true, [], .up⟩

/-- Every number with an exponent. -/
def exponential : Layout := ⟨fun _ => false, [], .up⟩

end Layout

/-- A sign, if negative, before the text. -/
def signed (negative : Bool) (s : List Char) : List Char :=
  if negative then '-' :: s else s

/-- The shortest text of a finite double in a layout; other doubles are named by `special`. -/
def writeFloat (l : Layout) (special : Binary → List Char) (x : Float) : List Char :=
  match Binary.of x with
  | .finite negative m q => signed negative (l.write (shortest l.tie m q))
  | b => special b

end ColumnTree.Decimal
