/-
# The texts that numbers are printed as

A finite double is printed as digits, perhaps with a point among them, and a sign in front if it is
negative; so what is behind the sign is a number literal of formulas.  The other doubles are printed as
words, which are none (`numberText_cases`).
-/
import ColumnTree.Cell.Basic
import ColumnTree.Proofs.Formula.Number
import Mathlib.Data.List.TakeWhile

namespace ColumnTree.Decimal

/-- Digits, or digits around a point that has some in front of it. -/
def IsPlain (s : List Char) : Prop :=
  ∃ w f, w ≠ [] ∧ (∀ c ∈ w, c.isDigit = true) ∧ (∀ c ∈ f, c.isDigit = true) ∧
    (s = w ∨ s = w ++ '.' :: f)

theorem isDigit_of_mem_digitsOf {n : Nat} {c : Char} (h : c ∈ digitsOf n) : c.isDigit = true :=
  Nat.isDigit_of_mem_toDigits (by decide) (by decide) h

theorem digitsOf_ne_nil (n : Nat) : digitsOf n ≠ [] :=
  Nat.toDigits_ne_nil

theorem isDigit_of_mem_zeros {n : Nat} {c : Char} (h : c ∈ List.replicate n '0') :
    c.isDigit = true := by
  rw [List.eq_of_mem_replicate h]
  rfl

/-- What is set out positionally is plain. -/
theorem isPlain_positional (s : Scaled) : IsPlain (Layout.positional [] s) := by
  have hdigits := fun c => isDigit_of_mem_digitsOf (n := s.digits) (c := c)
  have hne := digitsOf_ne_nil s.digits
  unfold Layout.positional
  dsimp only
  split
  · refine ⟨_, [], ?_, ?_, by simp, .inl rfl⟩
    · simp [hne]
    · intro c hc
      rw [List.append_nil] at hc
      rcases List.mem_append.1 hc with hc | hc
      · exact hdigits c hc
      · exact isDigit_of_mem_zeros hc
  · split
    · next hpoint =>
      refine ⟨_, _, ?_, fun c hc => hdigits c (List.mem_of_mem_take hc),
        fun c hc => hdigits c (List.mem_of_mem_drop hc), .inr rfl⟩
      rw [ne_eq, List.take_eq_nil_iff, not_or]
      exact ⟨by omega, hne⟩
    · have hzero : ∀ c ∈ ['0'], c.isDigit = true := fun c hc => isDigit_of_mem_zeros (n := 1) hc
      refine ⟨['0'], _, by simp, hzero, fun c hc => ?_, .inr rfl⟩
      rcases List.mem_append.1 hc with hc | hc
      · exact isDigit_of_mem_zeros hc
      · exact hdigits c hc

namespace IsPlain

variable {s : List Char} (h : IsPlain s)

include h

theorem isFigure {c : Char} (hc : c ∈ s) : IsFigure c := by
  obtain ⟨w, f, -, hw, hf, rfl | rfl⟩ := h
  · exact .inl (hw c hc)
  · rcases List.mem_append.1 hc with hc | hc
    · exact .inl (hw c hc)
    · rcases List.mem_cons.1 hc with rfl | hc
      · exact .inr rfl
      · exact .inl (hf c hc)

theorem head : s.head?.any (fun c => c.isDigit || c == '.') = true := by
  obtain ⟨w, f, hne, hw, -, rfl | rfl⟩ := h
  all_goals
    obtain ⟨c, w, rfl⟩ := List.exists_cons_of_ne_nil hne
    exact Bool.or_eq_true_iff.2 (.inl (hw c (List.mem_cons_self ..)))

theorem isSome_numeral? : (numeral? s).isSome = true := by
  obtain ⟨w, f, hne, hw, hf, rfl | rfl⟩ := h
  · have htake : s.takeWhile Char.isDigit = s := List.takeWhile_eq_self_iff.2 hw
    have hdrop : s.dropWhile Char.isDigit = [] := List.dropWhile_eq_nil_iff.2 hw
    simp [numeral?, htake, hdrop, hne]
  · have htake : (w ++ '.' :: f).takeWhile Char.isDigit = w := by
      rw [List.takeWhile_append_of_pos hw]
      simp
    have hdrop : (w ++ '.' :: f).dropWhile Char.isDigit = '.' :: f := by
      rw [List.dropWhile_append_of_pos hw]
      simp
    have hfraction : f.dropWhile Char.isDigit = [] := List.dropWhile_eq_nil_iff.2 hf
    simp [numeral?, htake, hdrop, hne, hfraction]

theorem isSome_read? : (read? s).isSome = true := by
  obtain ⟨n, hn⟩ := Option.isSome_iff_exists.1 h.isSome_numeral?
  rw [read?_eq_unsigned? h.head, unsigned?, hn]
  rfl

end IsPlain

/-- A double whose exponent has only ones is not finite. -/
theorem isFinite_of_exponent {x : Float} (h : x.toBits.toNat / twoTo 52 % twoTo 11 = 2047) :
    x.isFinite = false := by
  have hexponent : (Float.Model.UnpackedFloat.unpackExponent x.toModel.toBits.toBitVec :
      BitVec Float.Model.Format.binary64.exponentBits) = -1#_ := by
    apply BitVec.eq_of_toNat_eq
    rw [Float.Model.UnpackedFloat.unpackExponent, BitVec.toNat_cast, BitVec.extractLsb_toNat]
    simp only [Nat.shiftRight_eq_div_pow]
    exact h
  delta Float.isFinite Float.Model.isFinite Float.Model.unpack Float.Model.UnpackedFloat.unpack
  dsimp only
  rw [if_pos hexponent]
  split <;> rfl

theorem isNaN_of_isFinite {x : Float} (h : x.isFinite = true) : x.isNaN = false := by
  change x.toModel.unpack.isFinite = true at h
  change x.toModel.unpack.isNaN = false
  generalize x.toModel.unpack = u at h ⊢
  cases u with
  | notANumber | infinity => cases h
  | zero | finite => rfl

/-- What is not read off the bits as a finite number is none. -/
theorem isFinite_eq_false {x : Float} (h : ∀ negative m q, Binary.of x ≠ .finite negative m q) :
    x.isFinite = false := by
  unfold Binary.of Binary.ofBits at h
  dsimp only at h
  split at h
  · next hexponent => exact isFinite_of_exponent hexponent
  · split at h
    · exact absurd rfl (h _ _ _)
    · exact absurd rfl (h _ _ _)

end ColumnTree.Decimal

namespace ColumnTree.Formula

open Decimal (IsPlain)

theorem isNumber_of_isPlain {s : List Char} (h : IsPlain s) : IsNumber s := by
  have hsign : ∀ d, d = '+' ∨ d = '-' → d ∉ s := by
    rintro d hd hmem
    rcases h.isFigure hmem with hfigure | hfigure
    · rcases hd with rfl | rfl <;> cases hfigure
    · rcases hd with rfl | rfl <;> cases hfigure
  exact isNumber_of_notMem h.isSome_read? h.head ⟨hsign '+' (.inl rfl), hsign '-' (.inr rfl)⟩

/-- A sign in front of a number. -/
theorem IsNumber.read?_negative {s : List Char} (h : IsNumber s) :
    Decimal.read? ('-' :: s) = (Decimal.read? s).map (- ·) := by
  rw [Decimal.read?_eq_unsigned? h.head, Decimal.read?]

/-- What is printed for a double, but for its sign. -/
inductive Unsigned (x : Float) : List Char → Prop where
  | number {s : List Char} : IsNumber s → Unsigned x s
  | nan : x.isFinite = false → Unsigned x "NaN".toList
  | infinity : x.isFinite = false → Unsigned x "Infinity".toList

/-- A double is printed as a number or a word, perhaps with a sign in front. -/
theorem numberText_cases (x : Float) :
    ∃ s, Unsigned x s ∧ (numberText x = s ∨ numberText x = '-' :: s) := by
  unfold numberText
  split
  · exact ⟨['0'], .number (isNumber_of_isPlain ⟨['0'], [], by decide, by decide, by decide, .inl rfl⟩),
      .inl rfl⟩
  · unfold Decimal.writeFloat
    dsimp only
    cases hx : Decimal.Binary.of x with
    | nan =>
        refine ⟨_, .nan (Decimal.isFinite_eq_false fun _ _ _ heq => ?_), .inl rfl⟩
        rw [hx] at heq
        cases heq
    | infinite negative =>
        refine ⟨_, .infinity (Decimal.isFinite_eq_false fun _ _ _ heq => ?_), ?_⟩
        · rw [hx] at heq
          cases heq
        · cases negative with
          | false => exact .inl rfl
          | true => exact .inr rfl
    | finite negative m q =>
        have hplain := Decimal.isPlain_positional (Decimal.shortest .up m q)
        refine ⟨_, .number (isNumber_of_isPlain hplain), ?_⟩
        cases negative with
        | false => exact .inl rfl
        | true => exact .inr rfl

end ColumnTree.Formula
