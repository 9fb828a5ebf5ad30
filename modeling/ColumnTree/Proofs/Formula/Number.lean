/-
# The texts of numbers

A number that begins with a digit or a point has digits and at most a point before the exponent, and
an exponent is a letter, perhaps a sign, and digits.  So a sign can only follow the letter, and
nothing in a number opens or closes anything.
-/
import ColumnTree.Proofs.Formula.Clear
import ColumnTree.Proofs.Formula.Plain
import ColumnTree.Proofs.Formula.Shaped
import Mathlib.Data.List.Basic

namespace ColumnTree.Decimal

/-- A digit or a point. -/
def IsFigure (c : Char) : Prop :=
  c.isDigit = true ∨ c = '.'

/-- An exponent with its letter, or nothing. -/
def IsExponent (s : List Char) : Prop :=
  s = [] ∨ ∃ c sign ds, s = c :: (sign ++ ds) ∧ (c = 'e' ∨ c = 'E') ∧
    (sign = [] ∨ sign = ['+'] ∨ sign = ['-']) ∧ ds ≠ [] ∧ ∀ d ∈ ds, d.isDigit = true

theorem isExponent_of_exponent? {c : Char} {s : List Char} (hc : c = 'e' ∨ c = 'E')
    (h : (exponent? s).isSome = true) : IsExponent (c :: s) := by
  refine .inr ?_
  have hdigits : ∀ {ds : List Char} {b : Bool}, (if ds.isEmpty || !ds.all Char.isDigit then none
      else some (if b then -(ofDigits ds : Int) else ofDigits ds)).isSome = true →
      ds ≠ [] ∧ ∀ d ∈ ds, d.isDigit = true := by
    intro ds b hds
    cases hcond : ds.isEmpty || !ds.all Char.isDigit with
    | true => simp [hcond] at hds
    | false => simpa using hcond
  match s, h with
  | '-' :: r, h => exact ⟨c, ['-'], r, rfl, hc, by simp, hdigits (b := true) h⟩
  | '+' :: r, h => exact ⟨c, ['+'], r, rfl, hc, by simp, hdigits (b := false) h⟩
  | [], h => cases h
  | d :: r, h =>
      by_cases hminus : d = '-'
      · subst hminus
        exact ⟨c, ['-'], r, rfl, hc, by simp, hdigits (b := true) h⟩
      · by_cases hplus : d = '+'
        · subst hplus
          exact ⟨c, ['+'], r, rfl, hc, by simp, hdigits (b := false) h⟩
        · refine ⟨c, [], d :: r, rfl, hc, by simp, hdigits (b := false) ?_⟩
          unfold exponent? at h
          split at h
          all_goals simp_all

/-- What is read after the digits is an exponent. -/
theorem isExponent_of_isSome {w f e : List Char}
    (h : (match e with
      | [] => some (⟨w, f, 0⟩ : Numeral)
      | c :: r => if c = 'e' || c = 'E' then (exponent? r).map (⟨w, f, ·⟩) else none).isSome = true) :
    IsExponent e := by
  cases e with
  | nil => exact .inl rfl
  | cons c r =>
      dsimp only at h
      split at h
      · next hc => exact isExponent_of_exponent? (by simpa using hc) (by simpa using h)
      · cases h

/-- A numeral is digits with at most a point among them, and an exponent. -/
theorem exists_of_numeral? {s : List Char} (h : (numeral? s).isSome = true) :
    ∃ m e, s = m ++ e ∧ m ≠ [] ∧ (∀ c ∈ m, IsFigure c) ∧ IsExponent e := by
  have hfigures : ∀ t : List Char, ∀ c ∈ t.takeWhile Char.isDigit, IsFigure c := fun t c hc =>
    .inl (List.all_eq_true.1 List.all_takeWhile c hc)
  have hs := List.takeWhile_append_dropWhile (p := Char.isDigit) (l := s)
  unfold numeral? at h
  dsimp only at h
  split at h
  · next r hdot =>
    split at h
    · cases h
    · refine ⟨s.takeWhile Char.isDigit ++ '.' :: r.takeWhile Char.isDigit, _, ?_, by simp, ?_,
        isExponent_of_isSome h⟩
      · rw [List.append_assoc, List.cons_append, List.takeWhile_append_dropWhile, ← hdot, hs]
      · intro c hc
        rcases List.mem_append.1 hc with hc | hc
        · exact hfigures s c hc
        · rcases List.mem_cons.1 hc with rfl | hc
          · exact .inr rfl
          · exact hfigures r c hc
  · split at h
    · cases h
    · next hempty =>
      exact ⟨s.takeWhile Char.isDigit, _, hs.symm, by simpa using hempty, hfigures s,
        isExponent_of_isSome h⟩

theorem IsFigure.toLower {c : Char} (h : IsFigure c) : c.toLower = c := by
  rcases h with h | rfl
  · have hdigit := Text.toNat_of_isDigit h
    refine dif_neg fun hupper => ?_
    have : 65 ≤ c.toNat := UInt32.le_iff_toNat_le.1 hupper.1
    omega
  · rfl

/-- What begins with a digit or a point has no sign. -/
theorem read?_eq_unsigned? {s : List Char}
    (hhead : s.head?.any (fun c => c.isDigit || c == '.') = true) : read? s = unsigned? s := by
  unfold read?
  split
  · cases hhead
  · cases hhead
  · rfl

/-- A number that begins with a digit or a point is a numeral. -/
theorem exists_of_read? {s : List Char} (h : (read? s).isSome = true)
    (hhead : s.head?.any (fun c => c.isDigit || c == '.') = true) :
    ∃ m e, s = m ++ e ∧ m ≠ [] ∧ (∀ c ∈ m, IsFigure c) ∧ IsExponent e := by
  refine exists_of_numeral? ?_
  cases s with
  | nil => cases hhead
  | cons c s =>
      rw [read?_eq_unsigned? hhead, unsigned?] at h
      cases hn : numeral? (c :: s) with
      | some n => rfl
      | none =>
          rw [hn] at h
          -- No word begins like that.
          have hc : IsFigure c := by simpa [IsFigure] using hhead
          have hword : ∀ w : List Char, w.head? = some 'i' ∨ w.head? = some 'n' →
              String.ofList ((c :: s).map Char.toLower) ≠ String.ofList w := by
            intro w hw heq
            rw [← String.ofList_injective heq, List.map_cons, hc.toLower] at hw
            rcases hw with hw | hw <;> cases hw <;> rcases hc with hc | hc <;> cases hc
          dsimp only at h
          split at h
          · next heq => exact absurd heq (hword ['i', 'n', 'f'] (.inl rfl))
          · next heq => exact absurd heq (hword ['i', 'n', 'f', 'i', 'n', 'i', 't', 'y'] (.inl rfl))
          · next heq => exact absurd heq (hword ['n', 'a', 'n'] (.inr rfl))
          · cases h

/-! ## The characters of a number -/

section Characters

variable {m e : List Char} (hm : ∀ c ∈ m, IsFigure c) (he : IsExponent e)

include hm he

theorem mem_numeral {c : Char} (hc : c ∈ m ++ e) :
    IsFigure c ∨ c = 'e' ∨ c = 'E' ∨ c = '+' ∨ c = '-' := by
  rcases List.mem_append.1 hc with hc | hc
  · exact .inl (hm c hc)
  · rcases he with rfl | ⟨l, sign, ds, rfl, hl, hsign, -, hds⟩
    · cases hc
    · simp only [List.mem_cons, List.mem_append] at hc
      rcases hc with rfl | hc | hc
      · rcases hl with rfl | rfl <;> simp
      · rcases hsign with rfl | rfl | rfl <;> simp_all
      · exact .inl (.inl (hds c hc))

/-- A sign stands between the letter of the exponent and its digits. -/
theorem sign_numeral {x y : List Char} {c : Char} (heq : m ++ e = x ++ c :: y)
    (hc : c = '+' ∨ c = '-') :
    ∃ l, x = m ++ [l] ∧ (l = 'e' ∨ l = 'E') ∧ y ≠ [] ∧ ∀ d ∈ y, d.isDigit = true := by
  have hfigure : ¬ IsFigure c := by
    rintro (h | h)
    · rcases hc with rfl | rfl <;> cases h
    · rcases hc with rfl | rfl <;> cases h
  have hnot : c ∉ m := fun h => hfigure (hm c h)
  have hmem : c ∈ m ++ e := by
    rw [heq]
    simp
  rcases he with rfl | ⟨l, sign, ds, rfl, hl, hsign, hne, hds⟩
  · exact absurd hmem (by simpa using hnot)
  · have hletter : c ≠ l := by
      rintro rfl
      rcases hc with rfl | rfl <;> rcases hl with h | h <;> cases h
    have hdigits : c ∉ ds := fun h => hfigure (.inl (hds c h))
    obtain rfl | ⟨k, rfl⟩ : sign = [] ∨ ∃ k, sign = [k] := by
      rcases hsign with rfl | rfl | rfl <;> simp
    · exact absurd hmem (by simp [hnot, hletter, hdigits])
    · have hsplit : (m ++ [l]) ++ k :: ds = x ++ c :: y := by simpa using heq
      obtain ⟨rfl, -, rfl⟩ :=
        (List.append_cons_inj_of_notMem (by simp [hnot, hletter]) hdigits).1 hsplit
      exact ⟨l, rfl, hl, hne, hds⟩

/-- The last character is no sign. -/
theorem last_numeral {x : List Char} {c : Char} (heq : m ++ e = x ++ [c]) :
    c ≠ '+' ∧ c ≠ '-' := by
  have hfigure : IsFigure c ∨ c = 'e' ∨ c = 'E' := by
    rcases he with rfl | ⟨l, sign, ds, rfl, hl, hsign, hds, hdigits⟩
    · rw [List.append_nil] at heq
      exact .inl (hm c (by rw [heq]; simp))
    · obtain ⟨ds, d, rfl⟩ := List.eq_nil_or_concat ds |>.resolve_left hds
      have : (m ++ l :: (sign ++ ds)) ++ [d] = x ++ [c] := by simpa using heq
      obtain ⟨-, hlast⟩ := List.append_inj' this rfl
      obtain ⟨rfl, -⟩ := List.cons.inj hlast
      exact .inl (.inl (hdigits d (by simp)))
  constructor <;> rintro rfl <;> rcases hfigure with (h | h) | h | h <;> cases h

end Characters

end ColumnTree.Decimal

namespace ColumnTree.Formula

open Decimal (exists_of_read? mem_numeral sign_numeral last_numeral)

/-- The characters that numbers are made of. -/
def IsNumberChar (c : Char) : Prop :=
  c.isDigit = true ∨ c ∈ ['.', 'e', 'E', '+', '-']

namespace IsNumberChar

variable {c : Char} (h : IsNumberChar c)

include h

theorem notMem {l : List Char}
    (hl : ∀ d ∈ l, d.isDigit = false ∧ d ∉ ['.', 'e', 'E', '+', '-']) : c ∉ l := by
  intro hc
  rcases h with h | h
  · rw [(hl c hc).1] at h
    cases h
  · exact (hl c hc).2 h

theorem ordinary : Ordinary c :=
  h.notMem (by decide)

theorem isBlank : Text.isBlank c = false := by
  rw [← Bool.not_eq_true]
  intro hblank
  rcases h with h | h
  · have := Text.isAlpha_or_isDigit_of_isBlank hblank
    rw [h, Bool.or_true] at this
    cases this
  · simp only [List.mem_cons, List.not_mem_nil, or_false] at h
    rcases h with rfl | rfl | rfl | rfl | rfl <;> cases hblank

end IsNumberChar

theorem isNumberChar_of_read? {s : List Char} (h : (Decimal.read? s).isSome = true)
    (hhead : s.head?.any (fun c => c.isDigit || c == '.') = true) {c : Char} (hc : c ∈ s) :
    IsNumberChar c := by
  obtain ⟨m, e, rfl, -, hm, he⟩ := exists_of_read? h hhead
  rcases mem_numeral hm he hc with (h | rfl) | rfl | rfl | rfl | rfl
  · exact .inl h
  all_goals exact .inr (by simp)

namespace IsNumber

variable {s : List Char} (h : IsNumber s)

include h

theorem isNumberChar {c : Char} (hc : c ∈ s) : IsNumberChar c :=
  isNumberChar_of_read? h.reads h.head hc

theorem last {x : List Char} {c : Char} (hs : s = x ++ [c]) : c ≠ '+' ∧ c ≠ '-' := by
  obtain ⟨m, e, rfl, -, hm, he⟩ := exists_of_read? h.reads h.head
  exact last_numeral hm he hs

end IsNumber

theorem isNumber_of_notMem {s : List Char} (h : (Decimal.read? s).isSome = true)
    (hhead : s.head?.any (fun c => c.isDigit || c == '.') = true) (hsign : '+' ∉ s ∧ '-' ∉ s) :
    IsNumber s := by
  refine ⟨h, hhead, fun x c y heq hc => ?_⟩
  have hmem : c ∈ s := by
    rw [heq]
    simp
  rcases hc with rfl | rfl
  · exact absurd hmem hsign.1
  · exact absurd hmem hsign.2

/-- A number without a sign between operands has no sign but that of its exponent. -/
theorem isNumber_of_clear {s : List Char} {ms : List Mark} (h : (Decimal.read? s).isSome = true)
    (hhead : s.head?.any (fun c => c.isDigit || c == '.') = true) (hscan : Scans s ms)
    (hclear : Clear (·.isBinarySign) [] ms []) : IsNumber s := by
  refine ⟨h, hhead, fun x c y heq hc => ?_⟩
  have hchars : ∀ d ∈ s, IsNumberChar d := fun d hd => isNumberChar_of_read? h hhead hd
  obtain rfl : ms = s.map (.of · true) :=
    (hscan.choose_spec.unique (Reads.ordinary (fun d hd => (hchars d hd).ordinary) [])).1
  obtain ⟨m, e, hs, hne, hm, he⟩ := exists_of_read? h hhead
  obtain ⟨l, rfl, hl, -⟩ := sign_numeral hm he (hs.symm.trans heq) hc
  obtain ⟨x', d, rfl⟩ := (List.eq_nil_or_concat m).resolve_left hne
  refine ⟨x', d, l, by simp, ?_, hl⟩
  have hnot := hclear _ _ _ (by rw [heq, List.map_append, List.map_cons])
  have htop : (['+', '-'].contains c) = true := by rcases hc with rfl | rfl <;> rfl
  have hprev : Text.isBlank l = false ∧
      (['+', '-', '*', '/', '<', '>', '=', '!', ','].contains l) = false := by
    rcases hl with rfl | rfl <;> decide
  have hletter : (l == 'e' || l == 'E') = true := by rcases hl with rfl | rfl <;> rfl
  simpa [Cut.isBinarySign, Cut.isTop, Cut.isExponentSign, Cut.previous?, htop, hprev, hletter,
    -List.contains_eq_mem, -List.contains_cons] using hnot

end ColumnTree.Formula
