/-
# Counts as doubles

A natural number below `2 ^ 53` is a double.  Its 53 digits are the number itself, moved up
(`significand`), and with nothing behind them no rounding takes place: conversion, multiplication by
one and addition all end in `normalize_scaled`.  So such numbers are added exactly (`toFloat_add`)
and read back from their bits (`toWord?_toFloat`); in particular different ones are different
doubles.

A double is computed with as its sign, digits and exponent, so this is shown of the unpacked form
`unpackedNat`, and the way through the bits and back loses nothing (`unpack_pack`).
-/
import ColumnTree.Decimal.Binary
import Mathlib

namespace ColumnTree.Decimal

open Float.Model (Format totalExponent UnpackedFloat)
open Float.Model.UnpackedFloat

/-! ## Digits -/

/-- The 53 digits of a number as a double: its own ones, moved up to the top. -/
def significand (n : Nat) : Nat :=
  n * 2 ^ (52 - n.log2)

theorem log2_scaled {n : Nat} (h0 : n ≠ 0) (k : Nat) : (n * 2 ^ k).log2 = n.log2 + k := by
  rw [Nat.log2_eq_iff (Nat.mul_ne_zero h0 (Nat.ne_of_gt (Nat.two_pow_pos k))), Nat.pow_succ', Nat.pow_add]
  have hlo := Nat.mul_le_mul_right (2 ^ k) (Nat.log2_self_le h0)
  have hhi := Nat.mul_lt_mul_of_pos_right (Nat.lt_log2_self (n := n)) (Nat.two_pow_pos k)
  rw [Nat.pow_succ', Nat.mul_assoc] at hhi
  exact ⟨hlo, hhi⟩

section Digits

variable {n : Nat} (h0 : n ≠ 0) (hn : n < 2 ^ 53)

include h0 hn

theorem log2_le_of_lt : n.log2 ≤ 52 :=
  Nat.lt_succ_iff.1 ((Nat.log2_lt h0).2 hn)

theorem significand_bounds : 2 ^ 52 ≤ significand n ∧ significand n < 2 ^ 53 := by
  have hle := log2_le_of_lt h0 hn
  have hlo := Nat.mul_le_mul_right (2 ^ (52 - n.log2)) (Nat.log2_self_le h0)
  have hhi := Nat.mul_lt_mul_of_pos_right (Nat.lt_log2_self (n := n)) (Nat.two_pow_pos (52 - n.log2))
  rw [← Nat.pow_add] at hlo hhi
  rw [show n.log2 + (52 - n.log2) = 52 by omega] at hlo
  rw [show n.log2 + 1 + (52 - n.log2) = 53 by omega] at hhi
  exact ⟨hlo, hhi⟩

theorem significand_ne_zero : significand n ≠ 0 := by
  have := (significand_bounds h0 hn).1
  omega

/-- The digits stand for the number again. -/
theorem wholePart_significand : wholePart (significand n) (n.log2 - 52) = n := by
  have hle := log2_le_of_lt h0 hn
  rw [wholePart, significand]
  by_cases htop : n.log2 = 52
  · simp [htop]
  · have hshift : (-((n.log2 : Int) - 52)).toNat = 52 - n.log2 := by omega
    rw [if_neg (by omega), hshift]
    exact Nat.mul_div_cancel n (Nat.two_pow_pos _)

/-- The digits, moved on to a smaller exponent. -/
theorem decreaseExponent_significand {k : Nat} (hk : 52 - n.log2 ≤ k) :
    decreaseExponent (significand n) (n.log2 - 52) (-k) = (n * 2 ^ k, -(k : Int)) := by
  have hle := log2_le_of_lt h0 hn
  have hshift : ((n.log2 : Int) - 52 - -k).toNat = k - (52 - n.log2) := by omega
  have hexponent : 52 - n.log2 + (k - (52 - n.log2)) = k := by omega
  rw [decreaseExponent, hshift, significand, Nat.shiftLeft_eq, Nat.mul_assoc, ← Nat.pow_add,
    hexponent, Prod.mk.injEq]
  exact ⟨rfl, by omega⟩

end Digits

/-! ## Rounding -/

/-- Zeros are moved out without a trace. -/
theorem shiftRight_scaled (m k : Nat) :
    (⟨m * 2 ^ k, false, false⟩ : ExtendedMantissa) >>> k = ⟨m, false, false⟩ := by
  induction k generalizing m with
  | zero =>
      rw [Nat.pow_zero, Nat.mul_one]
      rfl
  | succ k ih =>
      have h := ih (m * 2)
      rw [Nat.mul_assoc, ← Nat.pow_succ'] at h
      change ExtendedMantissa.shiftRightOne
        ((⟨m * 2 ^ (k + 1), false, false⟩ : ExtendedMantissa) >>> k) = _
      rw [h]
      simp [ExtendedMantissa.shiftRightOne]

section Rounding

variable {n : Nat} (h0 : n ≠ 0) (hn : n < 2 ^ 53)

include h0 hn

theorem targetExponent_scaled (k : Nat) :
    Format.binary64.targetExponent (totalExponent (n * 2 ^ k) (-k)) = n.log2 - 52 := by
  have hle := log2_le_of_lt h0 hn
  simp only [Format.targetExponent, totalExponent, log2_scaled h0, Format.mantissaBits,
    Format.minExponent]
  omega

theorem shiftToTargetExponent_scaled {k : Nat} (hk : 52 - n.log2 ≤ k) :
    shiftToTargetExponent Format.binary64 (n * 2 ^ k) (-k) .exact =
      (⟨significand n, false, false⟩, (n.log2 : Int) - 52) := by
  have hle := log2_le_of_lt h0 hn
  have hexponent : 52 - n.log2 + (k - (52 - n.log2)) = k := by omega
  have hscale : n * 2 ^ k = significand n * 2 ^ (k - (52 - n.log2)) := by
    rw [significand, Nat.mul_assoc, ← Nat.pow_add, hexponent]
  have hshift : ((n.log2 : Int) - 52 - -k).toNat = k - (52 - n.log2) := by omega
  simp only [shiftToTargetExponent, targetExponent_scaled h0 hn, shiftToExponent, hshift]
  rw [hscale, ExtendedMantissa.ofMantissaAndAccuracy, shiftRight_scaled, Prod.mk.injEq]
  exact ⟨rfl, by omega⟩

theorem roundWithAccuracy_scaled (s : Sign) {k : Nat} (hk : 52 - n.log2 ≤ k) :
    roundWithAccuracy Format.binary64 s (n * 2 ^ k) (-k) .exact =
      .finite s (significand n) (n.log2 - 52) (Nat.pos_of_ne_zero (significand_ne_zero h0 hn)) := by
  have hle := log2_le_of_lt h0 hn
  -- The digits are moved a second time after rounding, which finds them in place.
  have hagain := shiftToTargetExponent_scaled h0 hn (Nat.le_refl (52 - n.log2))
  rw [show (-(52 - n.log2 : Nat) : Int) = n.log2 - 52 by omega] at hagain
  rw [roundWithAccuracy, shiftToTargetExponent_scaled h0 hn hk]
  change (let (em, e) :=
      shiftToTargetExponent Format.binary64 (n * 2 ^ (52 - n.log2)) (n.log2 - 52) .exact
    if h : em.mantissa = 0 then UnpackedFloat.zero s
    else .finite s em.mantissa e (Nat.pos_of_ne_zero h)) = _
  rw [hagain]
  exact dif_neg (significand_ne_zero h0 hn)

theorem round_scaled (s : Sign) (k : Nat) :
    UnpackedFloat.round Format.binary64 s (n * 2 ^ k) (-k) =
      .finite s (significand n) (n.log2 - 52) (Nat.pos_of_ne_zero (significand_ne_zero h0 hn)) := by
  have hle := log2_le_of_lt h0 hn
  have hmore : (-(k : Int) - (n.log2 - 52)).toNat = 52 - n.log2 - k := by omega
  simp only [UnpackedFloat.round, targetExponent_scaled h0 hn, decreaseExponent, hmore]
  rw [Nat.shiftLeft_eq, Nat.mul_assoc, ← Nat.pow_add,
    show (-(k : Int) - (52 - n.log2 - k : Nat)) = -(k + (52 - n.log2 - k) : Nat) by omega]
  exact roundWithAccuracy_scaled h0 hn s (by omega)

end Rounding

/-- The sign, digits and exponent of a number. -/
def unpackedNat (n : Nat) : UnpackedFloat :=
  if h : significand n = 0 then .zero .positive
  else .finite .positive (significand n) (n.log2 - 52) (Nat.pos_of_ne_zero h)

theorem unpackedNat_of_ne_zero {n : Nat} (h0 : n ≠ 0) (hn : n < 2 ^ 53) :
    unpackedNat n = .finite .positive (significand n) (n.log2 - 52)
      (Nat.pos_of_ne_zero (significand_ne_zero h0 hn)) :=
  dif_neg (significand_ne_zero h0 hn)

/-- A number is not rounded, with however many zeros it is written. -/
theorem normalize_scaled {n : Nat} (hn : n < 2 ^ 53) (k : Nat) :
    UnpackedFloat.normalize Format.binary64 (n * 2 ^ k : Nat) (-k) .positive = unpackedNat n := by
  by_cases h0 : n = 0
  · subst h0
    rw [Nat.zero_mul]
    rfl
  · have hpos : compare ((n * 2 ^ k : Nat) : Int) 0 = .gt := by
      have := Nat.mul_pos (Nat.pos_of_ne_zero h0) (Nat.two_pow_pos k)
      exact Int.compare_eq_gt.2 (by omega)
    rw [unpackedNat_of_ne_zero h0 hn, UnpackedFloat.normalize, hpos]
    exact round_scaled h0 hn .positive k

/-! ## Bits -/

section Packing

variable {s : Sign} {m : Nat} {q : Int} (hpos : 0 < m) (hlo : 2 ^ 52 ≤ m) (hhi : m < 2 ^ 53)
  (hq : -1074 ≤ q) (hq' : q ≤ 971)

include hlo hhi hq hq'

/-- A double with all its 53 digits is packed as its exponent and the digits behind the first. -/
theorem pack_full : pack Format.binary64 (.finite s m q hpos) =
    packComponents Format.binary64 s (BitVec.ofNat 11 (q + 1075).toNat) (BitVec.ofNat 52 m) := by
  have hlog : m.log2 = 52 := (Nat.log2_eq_iff (Nat.ne_of_gt hpos)).2 ⟨hlo, hhi⟩
  have hexponent : (q + 1023 + 52).toNat = (q + 1075).toNat := by omega
  change (if 2048 ≤ (q + 1023 + 52).toNat + 1 then _ else if m.log2 + 1 = 53 then
    packComponents Format.binary64 s (BitVec.ofNat 11 (q + 1023 + 52).toNat)
      (BitVec.ofNat 52 m) else _) = _
  rw [hlog, hexponent, if_neg (by omega), if_pos rfl]

theorem toNat_pack : (pack Format.binary64 (.finite s m q hpos)).toNat =
    s.toBitVec.toNat * 2 ^ 63 + (q + 1075).toNat * 2 ^ 52 + (m - 2 ^ 52) := by
  have hexponent : (q + 1075).toNat % 2 ^ 11 = (q + 1075).toNat := by omega
  have hfraction : m % 2 ^ 52 = m - 2 ^ 52 := by omega
  rw [pack_full hpos hlo hhi hq hq']
  change (s.toBitVec ++ BitVec.ofNat 11 (q + 1075).toNat ++ BitVec.ofNat 52 m).toNat = _
  rw [BitVec.toNat_append, BitVec.toNat_append, BitVec.toNat_ofNat, BitVec.toNat_ofNat, hexponent,
    hfraction, ← Nat.shiftLeft_add_eq_or_of_lt (by omega),
    ← Nat.shiftLeft_add_eq_or_of_lt (by omega), Nat.shiftLeft_eq, Nat.shiftLeft_eq, Nat.add_mul,
    Nat.mul_assoc]
  rfl

/-- Nothing is lost in packing. -/
theorem unpack_pack : unpack Format.binary64 (pack Format.binary64 (.finite s m q hpos)) =
    .finite s m q hpos := by
  have hexponent : (BitVec.ofNat 11 (q + 1075).toNat).toNat = (q + 1075).toNat := by
    rw [BitVec.toNat_ofNat]
    omega
  -- The exponent is neither that of the infinities nor that of the zeros.
  have hones : BitVec.ofNat 11 (q + 1075).toNat ≠ -1#11 := fun h => by
    have := congrArg BitVec.toNat h
    rw [hexponent] at this
    change _ = 2047 at this
    omega
  have hzero : BitVec.ofNat 11 (q + 1075).toNat ≠ 0#11 := fun h => by
    have := congrArg BitVec.toNat h
    rw [hexponent] at this
    change _ = 0 at this
    omega
  have hdigits : (1#1 ++ BitVec.ofNat 52 m).toNat = m := by
    rw [BitVec.toNat_append, BitVec.toNat_ofNat, BitVec.toNat_ofNat,
      ← Nat.shiftLeft_add_eq_or_of_lt (by omega), Nat.shiftLeft_eq]
    omega
  have hback : ((q + 1075).toNat : Int) - (1023 + 52) = q := by omega
  rw [pack_full hpos hlo hhi hq hq', unpack]
  simp only [unpackMantissa_packComponents, unpackExponent_packComponents,
    unpackSign_packComponents, Sign.ofBitVec_toBitVec]
  rw [if_neg hones, if_neg hzero]
  simp only [hdigits, hexponent]
  change UnpackedFloat.finite s m (((q + 1075).toNat : Int) - (1023 + 52)) _ = _
  simp only [hback]

/-- The value of a double is read off its bits as it was packed. -/
theorem of_pack : Binary.of (.ofModel (.pack (.finite s m q hpos))) =
    .finite (s == .negative) m q := by
  have hbits : (Float.ofModel (.pack (.finite s m q hpos))).toBits.toNat =
      s.toBitVec.toNat * 2 ^ 63 + (q + 1075).toNat * 2 ^ 52 + (m - 2 ^ 52) :=
    toNat_pack hpos hlo hhi hq hq'
  have hsign : s.toBitVec.toNat % 2 = s.toBitVec.toNat ∧
      (s.toBitVec.toNat == 1) = (s == .negative) := by
    cases s <;> exact ⟨rfl, rfl⟩
  obtain ⟨hnegative, hexponent, hfraction⟩ :
      (s.toBitVec.toNat * 2 ^ 63 + (q + 1075).toNat * 2 ^ 52 + (m - 2 ^ 52)) / 2 ^ 63 % 2 =
          s.toBitVec.toNat ∧
        (s.toBitVec.toNat * 2 ^ 63 + (q + 1075).toNat * 2 ^ 52 + (m - 2 ^ 52)) / 2 ^ 52 % 2 ^ 11 =
          (q + 1075).toNat ∧
        (s.toBitVec.toNat * 2 ^ 63 + (q + 1075).toNat * 2 ^ 52 + (m - 2 ^ 52)) % 2 ^ 52 =
          m - 2 ^ 52 := by
    omega
  unfold Binary.of Binary.ofBits twoTo
  simp only [Nat.pow_eq, hbits, hnegative, hexponent, hfraction, hsign.2]
  rw [if_neg (by omega), if_neg (by omega), Binary.finite.injEq]
  exact ⟨rfl, by omega, by omega⟩

end Packing

/-! ## Counts -/

section Counts

variable {n : Nat} (hn : n < 2 ^ 53)

include hn

theorem unpack_pack_unpackedNat : (Float.Model.pack (unpackedNat n)).unpack = unpackedNat n := by
  by_cases h0 : n = 0
  · subst h0
    rfl
  · obtain ⟨hlo, hhi⟩ := significand_bounds h0 hn
    have hle := log2_le_of_lt h0 hn
    rw [unpackedNat_of_ne_zero h0 hn]
    exact unpack_pack _ hlo hhi (by omega) (by omega)

theorem toModel_toUInt64_toFloat : n.toUInt64.toFloat.toModel = .pack (unpackedNat n) := by
  have hword : n.toUInt64.toNat = n := UInt64.toNat_ofNat_of_lt' (by change n < 2 ^ 64; omega)
  have hround := normalize_scaled hn 0
  rw [Nat.pow_zero, Nat.mul_one] at hround
  change Float.Model.pack
    (UnpackedFloat.normalize Format.binary64 (n.toUInt64.toNat : Nat) 0 .positive) = _
  rw [hword]
  exact congrArg _ hround

theorem mul_one_unpackedNat :
    mul Format.binary64 (unpackedNat n) (.finite .positive (2 ^ 52) (-52) (by decide)) =
      unpackedNat n := by
  by_cases h0 : n = 0
  · subst h0
    rfl
  · have hle := log2_le_of_lt h0 hn
    have hround := roundWithAccuracy_scaled h0 hn .positive (k := 52 - n.log2 + 52) (by omega)
    rw [Nat.pow_add, ← Nat.mul_assoc,
      show (-(52 - n.log2 + 52 : Nat) : Int) = (n.log2 - 52) + -52 by omega] at hround
    rw [unpackedNat_of_ne_zero h0 hn]
    exact hround

/-- The double of a number.  It is computed from the number as a word, multiplied by a power of two
that is one here. -/
theorem toModel_toFloat : n.toFloat.toModel = .pack (unpackedNat n) := by
  have hone : (Float.ofBits 0x3FF0000000000000).toModel.unpack =
      .finite .positive (2 ^ 52) (-52) (by decide) := by rfl
  have hmul : n.toFloat = n.toUInt64.toFloat * Float.ofBits 0x3FF0000000000000 :=
    dif_pos ⟨hn, by decide⟩
  rw [hmul]
  change Float.Model.pack (mul Format.binary64 n.toUInt64.toFloat.toModel.unpack
    (Float.ofBits 0x3FF0000000000000).toModel.unpack) = _
  rw [hone, toModel_toUInt64_toFloat hn, unpack_pack_unpackedNat hn, mul_one_unpackedNat hn]

theorem of_toFloat (h0 : n ≠ 0) :
    Binary.of n.toFloat = .finite false (significand n) (n.log2 - 52) := by
  obtain ⟨hlo, hhi⟩ := significand_bounds h0 hn
  have hle := log2_le_of_lt h0 hn
  have hmodel := toModel_toFloat hn
  rw [unpackedNat_of_ne_zero h0 hn] at hmodel
  change Binary.of (.ofModel n.toFloat.toModel) = _
  rw [hmodel]
  exact of_pack _ hlo hhi (by omega) (by omega)

/-- A number is read back from its double. -/
theorem toWord?_toFloat : toWord? n.toFloat = some (n : Int) := by
  by_cases h0 : n = 0
  · subst h0
    decide +kernel
  · have hword : (twoTo 63 : Int) = 2 ^ 63 := rfl
    have hcut : max (-(2 ^ 63 : Int)) (min n (2 ^ 63 - 1)) = n := by omega
    rw [toWord?, of_toFloat hn h0]
    simp only [Binary.truncated?, wholePart_significand h0 hn, Bool.false_eq_true, if_false,
      Option.map_some, hword, hcut]

end Counts

/-- So is one that is cut to so many bits and has no more. -/
theorem toUnsigned_toFloat {n bits : Nat} (hn : n < 2 ^ bits) (hbits : bits ≤ 53) :
    toUnsigned bits n.toFloat = n := by
  have hword : twoTo bits = 2 ^ bits := rfl
  have hdigits : n < 2 ^ 53 := Nat.lt_of_lt_of_le hn (Nat.pow_le_pow_right (by decide) hbits)
  by_cases h0 : n = 0
  · subst h0
    have hof : Binary.of (0 : Nat).toFloat = .finite false 0 (-1074) := rfl
    have hwhole : wholePart 0 (-1074) = 0 := by
      rw [wholePart, if_neg (by decide), Nat.zero_div]
    simp only [toUnsigned, hof, hwhole, Bool.false_eq_true, if_false, Nat.zero_min]
  · rw [toUnsigned, of_toFloat hdigits h0]
    simp only [wholePart_significand h0 hdigits, Bool.false_eq_true, if_false, hword]
    omega

theorem toFloat_inj {a b : Nat} (ha : a < 2 ^ 53) (hb : b < 2 ^ 53) :
    a.toFloat = b.toFloat ↔ a = b := by
  refine ⟨fun h => ?_, congrArg _⟩
  have hword := congrArg toWord? h
  rw [toWord?_toFloat ha, toWord?_toFloat hb] at hword
  exact Int.ofNat.inj (Option.some.inj hword)

/-! ## Sums -/

theorem add_unpackedNat {a b : Nat} (h : a + b < 2 ^ 53) :
    add Format.binary64 (unpackedNat a) (unpackedNat b) = unpackedNat (a + b) := by
  by_cases ha : a = 0
  · subst ha
    rw [Nat.zero_add]
    by_cases hb : b = 0
    · subst hb
      rfl
    · rw [unpackedNat_of_ne_zero hb (by omega)]
      rfl
  · by_cases hb : b = 0
    · subst hb
      rw [Nat.add_zero, unpackedNat_of_ne_zero ha (by omega)]
      rfl
    · have hla := log2_le_of_lt ha (by omega)
      have hlb := log2_le_of_lt hb (by omega)
      -- Both are written with the smaller of their exponents.
      let k := 52 - min a.log2 b.log2
      have hmin : min ((a.log2 : Int) - 52) (b.log2 - 52) = -k := by omega
      rw [unpackedNat_of_ne_zero ha (by omega), unpackedNat_of_ne_zero hb (by omega)]
      simp only [add, hmin, decreaseExponent_significand ha (by omega) (k := k) (by omega),
        decreaseExponent_significand hb (by omega) (k := k) (by omega)]
      rw [← normalize_scaled h k, Nat.add_mul]
      rfl

theorem eq_of_toModel_eq {x y : Float} (h : x.toModel = y.toModel) : x = y := by
  cases x
  cases y
  exact congrArg _ h

/-- Addition is exact as long as the sum has at most 53 binary digits. -/
theorem toFloat_add {a b : Nat} (h : a + b < 2 ^ 53) : a.toFloat + b.toFloat = (a + b).toFloat := by
  refine eq_of_toModel_eq ?_
  change Float.Model.pack (add Format.binary64 a.toFloat.toModel.unpack b.toFloat.toModel.unpack) = _
  rw [toModel_toFloat (by omega), toModel_toFloat (by omega), unpack_pack_unpackedNat (by omega),
    unpack_pack_unpackedNat (by omega), add_unpackedNat h, toModel_toFloat h]

end ColumnTree.Decimal
