/-
# Functions of numbers

Trigonometry, powers and logarithms are those of double arithmetic.  Rounding is half up.  The
functions with a formula of their own say it.
-/
import ColumnTree.Library.Basic

namespace ColumnTree.Library.Math

/-- An infinity. -/
def infinity : Float := 1.0 / 0.0

/-- Rounds toward zero; the sign of a zero is kept. -/
def truncate (x : Float) : Float :=
  if x < 0.0 then x.ceil else x.floor

/-- `log (1 + x)`, exact also near zero: the rounding error of `1 + x` is divided out. -/
def log1p (x : Float) : Float :=
  let u := 1.0 + x
  if u == 1.0 then x
  else if u == infinity then u
  else u.log * (x / (u - 1.0))

/-- `exp x - 1`, exact also near zero: the rounding error of `exp x` is divided out. -/
def expm1 (x : Float) : Float :=
  let u := x.exp
  if u == 1.0 then x
  else if u == infinity then u
  else if u - 1.0 == -1.0 then -1.0
  else (u - 1.0) * (x / u.log)

/-- The larger of two numbers; one that is not a number does not count. -/
def larger (x y : Float) : Float :=
  if x.isNaN then y else if y.isNaN then x else if x < y then y else x

/-- The smaller of two numbers; one that is not a number does not count. -/
def smaller (x y : Float) : Float :=
  if x.isNaN then y else if y.isNaN then x else if y < x then y else x

/-- The length of the hypotenuse.  Sides far from one are scaled, so that squares neither overflow
nor vanish. -/
def hypot (x y : Float) : Float :=
  let a := larger x.abs y.abs
  let b := smaller x.abs y.abs
  if a == infinity then a
  else if x.isNaN || y.isNaN then notANumber
  else if a == 0.0 then a
  else if 1e-100 < b && a < 1e100 then (a * a + b * b).sqrt
  else a * (1.0 + (b / a) * (b / a)).sqrt

/-- The inverse of the hyperbolic cosine. -/
def acosh (x : Float) : Float :=
  if x < 1.0 then notANumber
  else (x + (x - 1.0).sqrt * (x + 1.0).sqrt).log

/-- The inverse of the hyperbolic sine. -/
def asinh (x : Float) : Float :=
  let a := x.abs
  let r := 1.0 / a
  let y := log1p (a + a / (hypot 1.0 r + r))
  if x < 0.0 then -y else if x == 0.0 then x else y

/-- The inverse of the hyperbolic tangent. -/
def atanh (x : Float) : Float :=
  0.5 * log1p (2.0 * x / (1.0 - x))

/-- The ratio of a circle to its diameter. -/
def pi : Float := 3.141592653589793

/-- A power with a natural exponent by repeated squaring; `fuel` bounds the binary digits of the
exponent. -/
def powerFrom (acc base : Float) : Nat → Nat → Float
  | 0, _ => acc
  | fuel + 1, n =>
    let acc := if n % 2 = 1 then acc * base else acc
    if n / 2 = 0 then acc else powerFrom acc (base * base) fuel (n / 2)

/-- A power of ten with an integer exponent. -/
def powerOfTen (n : Int) : Float :=
  let p := powerFrom 1.0 10.0 32 n.natAbs
  if n < 0 then 1.0 / p else p

/-- The integer part of a number cut to 32 bits with sign, zero if it is not a number. -/
def toInt32 (x : Float) : Int :=
  match Decimal.Binary.of x with
  | .nan => 0
  | .infinite negative => if negative then -(twoTo 31 : Int) else twoTo 31 - 1
  | b => max (-(twoTo 31 : Int)) (min (b.truncated?.getD 0) (twoTo 31 - 1))

/-- Rounds half up to a number of decimal places, none by default. -/
def round (x places : Float) : Float :=
  if places == 0.0 then (x + 0.5).floor
  else
    let factor := powerOfTen (toInt32 places)
    (x * factor + 0.5).floor / factor

/-- The sign of a number as a number; zeros and what is not a number are kept. -/
def sign (x : Float) : Float :=
  if x.isNaN || x == 0.0 then x else if x < 0.0 then -1.0 else 1.0

/-- The zeros before the first one among the last 32 bits of a number. -/
def leadingZeros (x : Float) : Nat :=
  let bits := ((Decimal.toWord? x).getD 0 % twoTo 32).toNat
  if bits = 0 then 32 else 31 - bits.log2

/-- The extreme of some numbers; one that is not a number makes the result so. -/
def extreme (choose : Float → Float → Float) (start : Float) (xs : List Float) : Float :=
  if xs.any Float.isNaN then notANumber else xs.foldl choose start

/-- The lower bound of the bin that a number falls into; bins have a width and begin at `low`. -/
def bin (x low high width : Float) : Float :=
  if width > 0.0 then
    let inside := smaller (larger x low) high
    low + ((inside - low) / width).floor * width
  else notANumber

/-- A function of one number. -/
def unary (name description : String) (f : Float → Float) : Routine :=
  ⟨name, [1], name ++ "(x)", description, .math, fun args => .number (f (Argument.number args 0))⟩

/-- A function of two numbers. -/
def binary (name usage description : String) (f : Float → Float → Float) : Routine :=
  ⟨name, [2], usage, description, .math, fun args =>
    .number (f (Argument.number args 0) (Argument.number args 1))⟩

/-- A test of one number. -/
def test (name description : String) (p : Float → Bool) : Routine :=
  ⟨name, [1], name ++ "(x)", description, .math, fun args => .bool (p (Argument.number args 0))⟩

/-- A function of one to eight numbers. -/
def many (name description : String) (f : List Float → Float) : Routine :=
  ⟨name, [1, 2, 3, 4, 5, 6, 7, 8], name ++ "(x, y, ...)", description, .math, fun args =>
    .number (f (args.map Cell.toNumber))⟩

/-- The functions of numbers. -/
def routines : List Routine := [
  unary "abs" "Absolute value" Float.abs,
  unary "acos" "Arc cosine in radians" Float.acos,
  unary "acosh" "Inverse hyperbolic cosine" acosh,
  unary "asin" "Arc sine in radians" Float.asin,
  unary "asinh" "Inverse hyperbolic sine" asinh,
  unary "atan" "Arc tangent in radians" Float.atan,
  binary "atan2" "atan2(y, x)" "Angle of the point (x, y)" Float.atan2,
  unary "atanh" "Inverse hyperbolic tangent" atanh,
  ⟨"bin", [4], "bin(x, lo, hi, step)", "Lower bound of the bin containing x", .math, fun args =>
    .number (bin (Argument.number args 0) (Argument.number args 1) (Argument.number args 2)
      (Argument.number args 3))⟩,
  unary "cbrt" "Cube root" Float.cbrt,
  unary "ceil" "Smallest integer not below x" Float.ceil,
  unary "clz32" "Leading zero bits of the 32-bit integer" fun x => (leadingZeros x).toFloat,
  unary "cos" "Cosine" Float.cos,
  unary "cosh" "Hyperbolic cosine" Float.cosh,
  unary "degrees" "Radians to degrees" fun x => x * (180.0 / pi),
  unary "exp" "e raised to x" Float.exp,
  unary "expm1" "exp(x) - 1" expm1,
  unary "floor" "Largest integer not above x" Float.floor,
  unary "fround" "Nearest single precision float" fun x => x.toFloat32.toFloat,
  many "greatest" "Largest argument" (extreme larger (-infinity)),
  binary "hypot" "hypot(x, y)" "Euclidean norm of (x, y)" hypot,
  test "is_finite" "True when x is a finite number" Float.isFinite,
  test "is_nan" "True when x is not a number" Float.isNaN,
  many "least" "Smallest argument" (extreme smaller infinity),
  unary "log" "Natural logarithm" Float.log,
  unary "log10" "Base 10 logarithm" Float.log10,
  unary "log1p" "ln(1 + x)" log1p,
  unary "log2" "Base 2 logarithm" Float.log2,
  binary "modulo" "modulo(x, y)" "Remainder of x / y" Decimal.remainder,
  binary "pow" "pow(base, exponent)" "base raised to exponent" Float.pow,
  unary "radians" "Degrees to radians" fun x => x * (pi / 180.0),
  ⟨"round", [1, 2], "round(x, digits?)", "Round half up to the given decimal digits", .math,
    fun args => .number (round (Argument.number args 0)
      (Argument.orDefault args 1 0.0 Cell.toNumber))⟩,
  unary "sign" "-1, 0 or 1" sign,
  unary "sin" "Sine" Float.sin,
  unary "sinh" "Hyperbolic sine" Float.sinh,
  unary "sqrt" "Square root" Float.sqrt,
  unary "tan" "Tangent" Float.tan,
  unary "tanh" "Hyperbolic tangent" Float.tanh,
  unary "trunc" "Integer part of x" truncate]

end ColumnTree.Library.Math
