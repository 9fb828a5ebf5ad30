/-
# The double nearest to a number

Natural numbers from `2 ^ 53` on have more digits than a double holds, and are rounded: to the nearest
double, and if two are equally near to the one whose last digit is zero (`isNearest_signed`).

The digits that do not fit are shifted out one by one, and of them only two things are kept: the last
one, and whether there was a one among the others.  `Residue` says what these two tell of the
remainder; that is as much as rounding needs to know (`rounds_shiftRight`).  Rounding is then a
matter of the multiples of one unit.  All doubles that are not below the number's highest power of two
are multiples of it, and those below are further off than that power, which is one too.
-/
import ColumnTree.Proofs.Decimal.Counts

namespace ColumnTree.Decimal

open Float.Model (Format totalExponent UnpackedFloat)
open Float.Model.UnpackedFloat

/-! ## Values -/

/-- The number that a finite double is. -/
def Binary.value? : Binary → Option ℚ
  | finite negative m q => some ((if negative then -(m : ℚ) else m) * 2 ^ q)
  | _ => none

/-- Is the last binary digit a zero? -/
def Binary.isEven : Binary → Bool
  | finite _ m _ => m % 2 == 0
  | _ => false

/-- A double is nearest to a number if it is finite and none is nearer; if another one is equally
near, then its last digit is a zero. -/
def IsNearest (v : ℚ) (x : Float) : Prop :=
  ∃ a, (Binary.of x).value? = some a ∧ ∀ y b, (Binary.of y).value? = some b →
    |v - a| ≤ |v - b| ∧ (|v - b| = |v - a| → b = a ∨ (Binary.of x).isEven = true)

/-- A finite double is a number of 53 digits times a power of two. -/
theorem exists_digits_of_value? {y : Float} {b : ℚ} (h : (Binary.of y).value? = some b) :
    ∃ a q : ℤ, |a| < 2 ^ 53 ∧ b = a * 2 ^ q := by
  have hsigned : ∀ (negative : Bool) (m : ℕ) (q : ℤ), m < 2 ^ 53 →
      ∃ a : ℤ, |a| < 2 ^ 53 ∧ (if negative then -(m : ℚ) else m) * 2 ^ q = a * 2 ^ q := by
    intro negative m q hm
    have habs : |(m : ℤ)| < 2 ^ 53 := by
      rw [Nat.abs_cast]
      exact_mod_cast hm
    cases negative with
    | true => exact ⟨-m, by rwa [abs_neg], by push_cast; rfl⟩
    | false => exact ⟨m, habs, by push_cast; rfl⟩
  unfold Binary.of Binary.ofBits at h
  dsimp only at h
  have hfraction : y.toBits.toNat % twoTo 52 < 2 ^ 52 := Nat.mod_lt _ (Nat.two_pow_pos 52)
  have hone : twoTo 52 = 2 ^ 52 := rfl
  split at h
  · split at h <;> cases h
  · split at h
    all_goals
      obtain rfl := Option.some.inj h
      refine (hsigned _ _ _ ?_).imp fun a ha => ⟨_, ha⟩
      omega

/-! ## Multiples of a unit -/

/-- Of all multiples of a unit the `m`-th is nearest to a number, and `m` is even if another one is
equally near. -/
structure Rounds (n u m : ℕ) : Prop where
  near : 2 * |(n : ℤ) - m * u| ≤ u
  even : 2 * |(n : ℤ) - m * u| = u → m % 2 = 0

theorem Rounds.le {n u m : ℕ} (h : Rounds n u m) (j : ℤ) :
    |(n : ℤ) - m * u| ≤ |(n : ℤ) - j * u| ∧
      (|(n : ℤ) - j * u| = |(n : ℤ) - m * u| → j = m ∨ m % 2 = 0) := by
  by_cases hj : j = m
  · subst hj
    exact ⟨le_rfl, fun _ => .inl rfl⟩
  · have hnear := h.near
    -- Two multiples are a unit apart at least.
    have hunit : (u : ℤ) ≤ |(m : ℤ) - j| * u :=
      le_mul_of_one_le_left (Int.natCast_nonneg u)
        (Int.one_le_abs (sub_ne_zero.2 fun heq => hj heq.symm))
    have hsplit : |(m : ℤ) - j| * u ≤ |(n : ℤ) - j * u| + |(n : ℤ) - m * u| := by
      calc |(m : ℤ) - j| * u = |((n : ℤ) - j * u) - (n - m * u)| := by
            rw [← Nat.abs_cast u, ← abs_mul, Nat.abs_cast]
            ring_nf
        _ ≤ |(n : ℤ) - j * u| + |(n : ℤ) - m * u| := abs_sub _ _
    refine ⟨by omega, fun heq => .inr (h.even ?_)⟩
    omega

/-! ## Shifting -/

/-- What the two digits that are kept behind a number say of a remainder. -/
def Residue (em : ExtendedMantissa) (u r : ℕ) : Prop :=
  match em.roundBit, em.stickyBit with
  | false, false => r = 0
  | false, true => 0 < r ∧ 2 * r < u
  | true, false => 2 * r = u
  | true, true => u < 2 * r ∧ r < u

theorem Residue.shiftRightOne {em : ExtendedMantissa} {u r : ℕ} (hu : 0 < u)
    (h : Residue em u r) : Residue em.shiftRightOne (2 * u) (r + em.mantissa % 2 * u) := by
  obtain ⟨m, roundBit, stickyBit⟩ := em
  have hdigit : m % 2 = 0 ∨ m % 2 = 1 := by omega
  rcases hdigit with hm | hm <;> cases roundBit <;> cases stickyBit <;>
    simp only [Residue, ExtendedMantissa.shiftRightOne, hm] at h ⊢ <;> simp <;> omega

/-- Shifting divides, and the two digits tell the remainder. -/
theorem exists_residue (n k : ℕ) :
    ∃ r, n = ((⟨n, false, false⟩ : ExtendedMantissa) >>> k).mantissa * 2 ^ k + r ∧
      Residue ((⟨n, false, false⟩ : ExtendedMantissa) >>> k) (2 ^ k) r := by
  induction k with
  | zero => exact ⟨0, (Nat.mul_one n).symm, rfl⟩
  | succ k ih =>
      obtain ⟨r, hn, hr⟩ := ih
      have hshift : (⟨n, false, false⟩ : ExtendedMantissa) >>> (k + 1) =
        ((⟨n, false, false⟩ : ExtendedMantissa) >>> k).shiftRightOne := rfl
      generalize (⟨n, false, false⟩ : ExtendedMantissa) >>> k = em at hn hr hshift
      refine ⟨r + em.mantissa % 2 * 2 ^ k, ?_, ?_⟩
      · rw [hshift]
        change n = em.mantissa / 2 * 2 ^ (k + 1) + _
        calc n = (2 * (em.mantissa / 2) + em.mantissa % 2) * 2 ^ k + r := by
              rw [Nat.div_add_mod]
              exact hn
          _ = em.mantissa / 2 * 2 ^ (k + 1) + (r + em.mantissa % 2 * 2 ^ k) := by ring
      · rw [hshift, Nat.pow_succ']
        exact hr.shiftRightOne (Nat.two_pow_pos k)

theorem Residue.lt {em : ExtendedMantissa} {u r : ℕ} (hu : 0 < u) (h : Residue em u r) : r < u := by
  obtain ⟨m, roundBit, stickyBit⟩ := em
  cases roundBit <;> cases stickyBit <;> simp only [Residue] at h <;> omega

section Multiples

variable {n u m r : ℕ} (hn : n = m * u + r)

include hn

theorem abs_sub_below : |(n : ℤ) - m * u| = r := by
  rw [hn, Nat.cast_add, Nat.cast_mul, add_sub_cancel_left, Nat.abs_cast]

theorem abs_sub_above (hr : r ≤ u) : |(n : ℤ) - (m + 1 : ℕ) * u| = u - r := by
  have hdiff : (n : ℤ) - (m + 1 : ℕ) * u = -(u - r : ℕ) := by
    rw [hn]
    push_cast [hr]
    ring
  rw [hdiff, abs_neg, Nat.abs_cast, Nat.cast_sub hr]

/-- The two digits are enough to round to the nearest multiple. -/
theorem Residue.rounds {em : ExtendedMantissa} (hm : em.mantissa = m) (hu : 0 < u)
    (h : Residue em u r) : Rounds n u em.roundedMantissa := by
  have hbelow := abs_sub_below hn
  have habove := abs_sub_above hn (h.lt hu).le
  obtain ⟨d, roundBit, stickyBit⟩ := em
  obtain rfl : d = m := hm
  simp only [ExtendedMantissa.roundedMantissa, ExtendedMantissa.accuracy]
  cases roundBit <;> cases stickyBit <;> simp only [Residue] at h <;>
    simp only [Accuracy.roundToNearestEven]
  case false.false | false.true =>
    refine ⟨?_, ?_⟩ <;> rw [hbelow] <;> omega
  case true.true =>
    refine ⟨?_, ?_⟩ <;> rw [habove] <;> omega
  case true.false =>
    -- A tie goes to the even one of the two multiples.
    rcases Nat.mod_two_eq_zero_or_one d with heven | hodd
    · rw [heven, Nat.add_zero]
      exact ⟨by rw [hbelow]; omega, fun _ => heven⟩
    · rw [hodd]
      exact ⟨by rw [habove]; omega, fun _ => by omega⟩

end Multiples

theorem roundedMantissa_bounds (em : ExtendedMantissa) :
    em.mantissa ≤ em.roundedMantissa ∧ em.roundedMantissa ≤ em.mantissa + 1 := by
  obtain ⟨m, roundBit, stickyBit⟩ := em
  cases roundBit <;> cases stickyBit <;>
    simp only [ExtendedMantissa.roundedMantissa, ExtendedMantissa.accuracy,
      Accuracy.roundToNearestEven] <;> omega

/-- Shifting digits out rounds to the nearest multiple of a power of two, up or down. -/
theorem rounds_shiftRight (n k : ℕ) :
    ∃ m, ((⟨n, false, false⟩ : ExtendedMantissa) >>> k).roundedMantissa = m ∧ Rounds n (2 ^ k) m ∧
      n / 2 ^ k ≤ m ∧ m ≤ n / 2 ^ k + 1 := by
  have hu := Nat.two_pow_pos k
  obtain ⟨r, hn, hr⟩ := exists_residue n k
  have hdiv : n / 2 ^ k = ((⟨n, false, false⟩ : ExtendedMantissa) >>> k).mantissa := by
    rw [Nat.div_eq_iff hu]
    have := hr.lt hu
    omega
  rw [hdiv]
  exact ⟨_, rfl, hr.rounds hn rfl hu, roundedMantissa_bounds _⟩

/-! ## Large numbers -/

theorem shiftRight_add (em : ExtendedMantissa) (j k : ℕ) : em >>> (j + k) = (em >>> j) >>> k := by
  induction k with
  | zero => rfl
  | succ k ih => exact congrArg ExtendedMantissa.shiftRightOne ih

section Shift

variable {q : ℤ} (hq : -1074 ≤ q)

include hq

theorem shiftToTargetExponent_full {m : ℕ} (hlo : 2 ^ 52 ≤ m) (hhi : m < 2 ^ 53) :
    shiftToTargetExponent Format.binary64 m q .exact = (⟨m, false, false⟩, q) := by
  have hlog : m.log2 = 52 := (Nat.log2_eq_iff (by omega)).2 ⟨hlo, hhi⟩
  have htarget : Format.binary64.targetExponent (totalExponent m q) = q := by
    simp only [Format.targetExponent, totalExponent, hlog, Format.mantissaBits, Format.minExponent]
    omega
  simp only [shiftToTargetExponent, htarget, shiftToExponent, sub_self, Int.toNat_zero]
  rw [Nat.cast_zero, add_zero]
  rfl

/-- A carry out of the first digit moves the digits down by one. -/
theorem shiftToTargetExponent_carry :
    shiftToTargetExponent Format.binary64 (2 ^ 53) q .exact = (⟨2 ^ 52, false, false⟩, q + 1) := by
  have htarget : Format.binary64.targetExponent (totalExponent (2 ^ 53) q) = q + 1 := by
    simp only [Format.targetExponent, totalExponent, Nat.log2_two_pow, Format.mantissaBits,
      Format.minExponent]
    omega
  simp only [shiftToTargetExponent, htarget, shiftToExponent, add_sub_cancel_left]
  rfl

end Shift

section Large

variable {n : ℕ} (hlog : 53 ≤ n.log2)

include hlog

theorem ne_zero_of_le_log2 : n ≠ 0 := by
  rintro rfl
  exact absurd hlog (by decide)

theorem div_bounds : 2 ^ 52 ≤ n / 2 ^ (n.log2 - 52) ∧ n / 2 ^ (n.log2 - 52) < 2 ^ 53 := by
  have h0 := ne_zero_of_le_log2 hlog
  have hu := Nat.two_pow_pos (n.log2 - 52)
  constructor
  · rw [Nat.le_div_iff_mul_le hu, ← Nat.pow_add, show 52 + (n.log2 - 52) = n.log2 by omega]
    exact Nat.log2_self_le h0
  · rw [Nat.div_lt_iff_lt_mul hu, ← Nat.pow_add, show 53 + (n.log2 - 52) = n.log2 + 1 by omega]
    exact Nat.lt_log2_self

theorem ofScientific_eq_round : UnpackedFloat.ofScientific Format.binary64 n 0 =
    roundWithAccuracy Format.binary64 .positive (n * 2 ^ 53) (-53) .exact := by
  have h0 := ne_zero_of_le_log2 hlog
  have hrange : ¬ (0 : ℤ) < -(2 ^ Format.binary64.exponentBits + n.log2) := by
    have : (2 : ℤ) ^ Format.binary64.exponentBits = 2048 := rfl
    omega
  rw [UnpackedFloat.ofScientific, dif_neg h0, if_neg (by decide), if_neg hrange, if_pos le_rfl]
  change roundWithAccuracy Format.binary64 .positive (n <<< 53 * 1) (-53) .exact = _
  rw [Nat.mul_one, Nat.shiftLeft_eq]

/-- A large number is rounded to the nearest multiple of the power of two that leaves 53 digits. -/
theorem exists_rounded : ∃ m d q, ∃ hd : 0 < d,
    UnpackedFloat.ofScientific Format.binary64 n 0 = .finite .positive d q hd ∧
      Rounds n (2 ^ (n.log2 - 52)) m ∧ (d : ℚ) * 2 ^ q = m * 2 ^ (n.log2 - 52) ∧
      (m % 2 = 0 → d % 2 = 0) ∧ 2 ^ 52 ≤ d ∧ d < 2 ^ 53 ∧ -1074 ≤ q ∧ q ≤ n.log2 - 51 := by
  obtain ⟨hlo, hhi⟩ := div_bounds hlog
  obtain ⟨m, hm, hrounds, hbelow, habove⟩ := rounds_shiftRight n (n.log2 - 52)
  have h0 := ne_zero_of_le_log2 hlog
  have hfirst : shiftToTargetExponent Format.binary64 (n * 2 ^ 53) (-53) .exact =
      ((⟨n, false, false⟩ : ExtendedMantissa) >>> (n.log2 - 52), ((n.log2 - 52 : ℕ) : ℤ)) := by
    have htarget : Format.binary64.targetExponent (totalExponent (n * 2 ^ 53) (-53)) =
        (n.log2 - 52 : ℕ) := by
      simp only [Format.targetExponent, totalExponent, log2_scaled h0, Format.mantissaBits,
        Format.minExponent]
      omega
    have hshift : (((n.log2 - 52 : ℕ) : ℤ) - -53).toNat = 53 + (n.log2 - 52) := by omega
    simp only [shiftToTargetExponent, htarget, shiftToExponent, hshift,
      ExtendedMantissa.ofMantissaAndAccuracy, shiftRight_add, shiftRight_scaled, Prod.mk.injEq,
      true_and]
    omega
  rw [ofScientific_eq_round hlog, roundWithAccuracy, hfirst]
  dsimp only
  rw [hm]
  by_cases hcarry : m = 2 ^ 53
  · rw [hcarry, shiftToTargetExponent_carry (by omega)]
    refine ⟨m, 2 ^ 52, (n.log2 - 52 : ℕ) + 1, by decide, rfl, hrounds, ?_, fun _ => by decide,
      le_rfl, by decide, by omega, by omega⟩
    rw [hcarry, zpow_add_one₀ two_ne_zero, zpow_natCast]
    push_cast
    ring
  · rw [shiftToTargetExponent_full (by omega) (by omega) (by omega)]
    refine ⟨m, m, (n.log2 - 52 : ℕ), by omega, dif_neg (show ¬ m = 0 by omega), hrounds, ?_, id,
      by omega, by omega, by omega, by omega⟩
    rw [zpow_natCast]

/-- Of all numbers of 53 digits, with whatever exponent, none is nearer than the nearest
multiple. -/
theorem Rounds.le_of_digits {m : ℕ} (h : Rounds n (2 ^ (n.log2 - 52)) m) {a : ℤ} (ha : |a| < 2 ^ 53)
    (q : ℤ) : |(n : ℚ) - m * 2 ^ (n.log2 - 52)| ≤ |(n : ℚ) - a * 2 ^ q| ∧
      (|(n : ℚ) - a * 2 ^ q| = |(n : ℚ) - m * 2 ^ (n.log2 - 52)| →
        (a : ℚ) * 2 ^ q = m * 2 ^ (n.log2 - 52) ∨ m % 2 = 0) := by
  have h0 := ne_zero_of_le_log2 hlog
  have hmultiple : ∀ j : ℤ,
      |(n : ℚ) - m * 2 ^ (n.log2 - 52)| ≤ |(n : ℚ) - j * 2 ^ (n.log2 - 52)| ∧
      (|(n : ℚ) - j * 2 ^ (n.log2 - 52)| = |(n : ℚ) - m * 2 ^ (n.log2 - 52)| →
        j = m ∨ m % 2 = 0) := by
    intro j
    have := h.le j
    exact_mod_cast this
  by_cases htop : (2 : ℚ) ^ n.log2 ≤ a * 2 ^ q
  · -- It is a multiple of the unit itself.
    have hexponent : ((n.log2 - 52 : ℕ) : ℤ) ≤ q := by
      have ha' : (a : ℚ) < 2 ^ (53 : ℤ) := by
        exact_mod_cast (abs_lt.1 ha).2
      have hlt : (2 : ℚ) ^ (n.log2 : ℤ) < 2 ^ (53 + q) := by
        calc (2 : ℚ) ^ (n.log2 : ℤ) ≤ a * 2 ^ q := by exact_mod_cast htop
          _ < 2 ^ (53 : ℤ) * 2 ^ q := mul_lt_mul_of_pos_right ha' (zpow_pos two_pos q)
          _ = 2 ^ (53 + q) := (zpow_add₀ two_ne_zero 53 q).symm
      have := (zpow_lt_zpow_iff_right₀ one_lt_two).1 hlt
      omega
    obtain ⟨j, hj⟩ := Int.le.dest hexponent
    have hvalue : (a : ℚ) * 2 ^ q = (a * 2 ^ j : ℤ) * 2 ^ (n.log2 - 52) := by
      rw [← hj, zpow_add₀ two_ne_zero, zpow_natCast, zpow_natCast]
      push_cast
      ring
    rw [hvalue]
    refine (hmultiple (a * 2 ^ j)).imp id fun himp heq => ?_
    exact (himp heq).imp_left fun hm => by rw [hm, Int.cast_natCast]
  · -- The highest power of two is nearer.
    have hpower : ((2 ^ 52 : ℤ) : ℚ) * 2 ^ (n.log2 - 52) = 2 ^ n.log2 := by
      rw [Int.cast_pow, Int.cast_ofNat, ← pow_add, show 52 + (n.log2 - 52) = n.log2 by omega]
    have hle : (2 : ℚ) ^ n.log2 ≤ n := by
      exact_mod_cast Nat.log2_self_le h0
    have hnear := (hmultiple (2 ^ 52)).1
    rw [hpower, abs_of_nonneg (sub_nonneg.2 hle)] at hnear
    have hfar : |(n : ℚ) - m * 2 ^ (n.log2 - 52)| < |(n : ℚ) - a * 2 ^ q| := by
      calc |(n : ℚ) - m * 2 ^ (n.log2 - 52)| ≤ n - 2 ^ n.log2 := hnear
        _ < n - a * 2 ^ q := sub_lt_sub_left (not_le.1 htop) _
        _ ≤ |(n : ℚ) - a * 2 ^ q| := le_abs_self _
    exact ⟨hfar.le, fun heq => absurd heq hfar.ne'⟩

end Large

/-! ## Conversion -/

/-- A number is converted to digits and an exponent than which none are nearer. -/
theorem exists_digits_toFloat {n : ℕ} (h0 : n ≠ 0) (hn : n.log2 < 1023) : ∃ d q, ∃ hd : 0 < d,
    n.toFloat = .ofModel (.pack (.finite .positive d q hd)) ∧
      (2 ^ 52 ≤ d ∧ d < 2 ^ 53 ∧ -1074 ≤ q ∧ q ≤ 971) ∧
      ∀ a e : ℤ, |a| < 2 ^ 53 → |(n : ℚ) - d * 2 ^ q| ≤ |(n : ℚ) - a * 2 ^ e| ∧
        (|(n : ℚ) - a * 2 ^ e| = |(n : ℚ) - d * 2 ^ q| → (a : ℚ) * 2 ^ e = d * 2 ^ q ∨ d % 2 = 0) := by
  by_cases hsmall : n < 2 ^ 53
  · obtain ⟨hlo, hhi⟩ := significand_bounds h0 hsmall
    have hle := log2_le_of_lt h0 hsmall
    have hmodel := toModel_toFloat hsmall
    rw [unpackedNat_of_ne_zero h0 hsmall] at hmodel
    have hvalue : (significand n : ℚ) * 2 ^ ((n.log2 : ℤ) - 52) = n := by
      rw [significand, show ((n.log2 : ℤ) - 52) = -((52 - n.log2 : ℕ) : ℤ) by omega, zpow_neg,
        zpow_natCast]
      push_cast
      exact mul_inv_cancel_right₀ (pow_ne_zero _ two_ne_zero) _
    refine ⟨_, _, _, congrArg Float.ofModel hmodel, ⟨hlo, hhi, by omega, by omega⟩, ?_⟩
    intro a e _
    rw [hvalue, sub_self, abs_zero]
    exact ⟨abs_nonneg _, fun heq => .inl (sub_eq_zero.1 (abs_eq_zero.1 heq)).symm⟩
  · have hlog : 53 ≤ n.log2 := (Nat.le_log2 h0).2 (not_lt.1 hsmall)
    obtain ⟨m, d, q, hd, hround, hrounds, hvalue, heven, hlo, hhi, hq, hq'⟩ := exists_rounded hlog
    have hfloat : n.toFloat = .ofModel (.pack (.finite .positive d q hd)) := by
      rw [← hround]
      exact dif_neg fun h => hsmall h.1
    refine ⟨d, q, hd, hfloat, ⟨hlo, hhi, hq, by omega⟩, fun a e ha => ?_⟩
    rw [hvalue]
    exact (hrounds.le_of_digits hlog ha e).imp id fun himp heq => (himp heq).imp_right heven

theorem of_neg_ofModel {d : ℕ} {q : ℤ} (hd : 0 < d)
    (h : 2 ^ 52 ≤ d ∧ d < 2 ^ 53 ∧ -1074 ≤ q ∧ q ≤ 971) :
    Binary.of (-.ofModel (.pack (.finite .positive d q hd))) = .finite true d q := by
  obtain ⟨hlo, hhi, hq, hq'⟩ := h
  have hunpack : (Float.Model.pack (.finite .positive d q hd)).unpack = .finite .positive d q hd :=
    unpack_pack hd hlo hhi hq hq'
  change Binary.of (.ofModel (.pack (Float.Model.pack (.finite .positive d q hd)).unpack.neg)) = _
  rw [hunpack]
  exact of_pack hd hlo hhi hq hq'

section Signed

variable {n : ℕ} (hn : n.log2 < 1023) (negative : Bool)

include hn

theorem exists_of_signed : ∃ d q,
    Binary.of (if negative then -n.toFloat else n.toFloat) = .finite negative d q ∧
      ∀ a e : ℤ, |a| < 2 ^ 53 → |(n : ℚ) - d * 2 ^ q| ≤ |(n : ℚ) - a * 2 ^ e| ∧
        (|(n : ℚ) - a * 2 ^ e| = |(n : ℚ) - d * 2 ^ q| →
          (a : ℚ) * 2 ^ e = d * 2 ^ q ∨ d % 2 = 0) := by
  by_cases h0 : n = 0
  · subst h0
    refine ⟨0, -1074, ?_, fun a e _ => ?_⟩
    · cases negative <;> rfl
    · simp only [Nat.cast_zero, zero_mul, sub_zero, abs_zero]
      exact ⟨abs_nonneg _, fun _ => .inr trivial⟩
  · obtain ⟨d, q, hd, hfloat, hbounds, hnear⟩ := exists_digits_toFloat h0 hn
    refine ⟨d, q, ?_, hnear⟩
    rw [hfloat]
    cases negative with
    | true => exact of_neg_ofModel hd hbounds
    | false => exact of_pack hd hbounds.1 hbounds.2.1 hbounds.2.2.1 hbounds.2.2.2

/-- A number and its opposite are converted to the doubles nearest to them. -/
theorem isNearest_signed :
    IsNearest (if negative then -(n : ℚ) else n) (if negative then -n.toFloat else n.toFloat) := by
  obtain ⟨d, q, hof, hnear⟩ := exists_of_signed hn negative
  rw [IsNearest, hof]
  refine ⟨_, rfl, fun y b hb => ?_⟩
  obtain ⟨a, e, ha, rfl⟩ := exists_digits_of_value? hb
  cases negative with
  | false =>
      refine (hnear a e ha).imp id fun himp heq => (himp heq).imp_right fun heven => ?_
      exact beq_iff_eq.2 heven
  | true =>
      -- Both sides are looked at from the other side of zero.
      have hflip : ∀ c : ℚ, |-(n : ℚ) - c| = |(n : ℚ) - -c| := fun c => by
        rw [← abs_neg]
        ring_nf
      have hopposite := hnear (-a) e (by rwa [abs_neg])
      rw [Int.cast_neg, neg_mul] at hopposite
      simp only [if_true, neg_mul]
      rw [hflip, hflip, neg_neg]
      refine hopposite.imp id fun himp heq => (himp heq).imp ?_ fun heven => ?_
      · exact neg_eq_iff_eq_neg.1
      · exact beq_iff_eq.2 heven

end Signed

end ColumnTree.Decimal
