/-
# Reading decimal text

A number is an optional sign and then either one of the words `inf`, `infinity`, `nan` in any mix
of cases, or digits with at most one point among them, at least one digit, and an optional
exponent.  It is read as the nearest double.
-/
import ColumnTree.Decimal.Binary

namespace ColumnTree.Decimal

/-- The value of a run of decimal digits. -/
def ofDigits (ds : List Char) : Nat :=
  ds.foldl (fun n c => 10 * n + (c.toNat - '0'.toNat)) 0

/-- The double nearest to `digits * 10 ^ exponent`.  Numbers beyond all doubles and below the least
are recognised by their count of digits, so that no huge power is formed. -/
def nearest (digits : Nat) (exponent : Int) : Float :=
  let top := (Nat.toDigits 10 digits).length + exponent
  if digits = 0 then 0.0
  else if 310 < top then 1.0 / 0.0
  else if top < -330 then 0.0
  else Float.ofScientific digits (exponent < 0) exponent.natAbs

/-- A decimal numeral: its digits before and after the point, and its exponent. -/
structure Numeral where
  /-- Digits before the point. -/
  whole : List Char
  /-- Digits after the point. -/
  fraction : List Char
  /-- The power of ten. -/
  exponent : Int
deriving DecidableEq, Repr

/-- The double nearest to a numeral. -/
def Numeral.value (n : Numeral) : Float :=
  nearest (ofDigits (n.whole ++ n.fraction)) (n.exponent - n.fraction.length)

/-- An exponent after its letter: an optional sign and at least one digit, nothing after. -/
def exponent? (s : List Char) : Option Int :=
  let (negative, ds) := match s with
    | '-' :: r => (true, r)
    | '+' :: r => (false, r)
    | r => (false, r)
  if ds.isEmpty || !ds.all Char.isDigit then none
  else
    let n : Int := ofDigits ds
    some (if negative then -n else n)

/-- The unsigned numeral that a whole text is. -/
def numeral? (s : List Char) : Option Numeral :=
  let whole := s.takeWhile Char.isDigit
  let rest := s.dropWhile Char.isDigit
  let (fraction, rest) := match rest with
    | '.' :: r => (r.takeWhile Char.isDigit, r.dropWhile Char.isDigit)
    | r => ([], r)
  if whole.isEmpty && fraction.isEmpty then none
  else match rest with
    | [] => some ⟨whole, fraction, 0⟩
    | c :: r => if c = 'e' || c = 'E' then (exponent? r).map (⟨whole, fraction, ·⟩) else none

/-- The unsigned number that a whole text is. -/
def unsigned? (s : List Char) : Option Float :=
  match numeral? s with
  | some n => some n.value
  | none =>
    match String.ofList (s.map Char.toLower) with
    | "inf" | "infinity" => some (1.0 / 0.0)
    | "nan" => some (0.0 / 0.0)
    | _ => none

/-- The number that a whole text is. -/
def read? : List Char → Option Float
  | '-' :: s => (unsigned? s).map (- ·)
  | '+' :: s => unsigned? s
  | s => unsigned? s

end ColumnTree.Decimal
