/-
# Whole texts

A text is `Whole` if the scanner leaves it as it came in, in plain text and outside all brackets, and
finds no comma on top of it.  It is scanned in the same way wherever it stands: the brackets that are
open around it do not matter, since none of them is closed in it (`Reads.under`), and in brackets none
of its marks is on top (`Whole.nested`).  Texts put together from whole texts are whole.

Whole texts are what formulas are put together from; that every formula is one is a matter of the
reader.
-/
import ColumnTree.Proofs.Formula.Spelled

namespace ColumnTree.Formula

/-! ## Brackets around a text -/

/-- The state inside brackets that were open before. -/
def ScanState.under (s : ScanState) (outer : List Char) : ScanState :=
  ⟨s.mode, s.stack ++ outer⟩

theorem ScanState.step_under {s s' : ScanState} {o : Nat} {c : Char} {top : Bool}
    (h : s.step o c = .ok (s', top)) (b : Char) (outer : List Char) :
    (s.under (b :: outer)).step o c = .ok (s'.under (b :: outer), false) := by
  obtain ⟨mode, stack⟩ := s
  have hempty : ∀ l : List Char, (l ++ b :: outer).isEmpty = false := fun l => by
    cases l <;> rfl
  cases mode with
  | name depth =>
      rw [step_name] at h
      rw [under, step_name]
      split at h
      · next hd =>
        obtain ⟨rfl, -⟩ := Prod.mk.inj (Except.ok.inj h)
        rw [if_pos hd, hempty]
        rfl
      · next hd =>
        obtain ⟨rfl, -⟩ := Prod.mk.inj (Except.ok.inj h)
        rw [if_neg hd]
        rfl
  | quoted quote escaped =>
      simp only [ScanState.step] at h
      simp only [under, ScanState.step]
      repeat' split at h
      all_goals
        obtain ⟨rfl, -⟩ := Prod.mk.inj (Except.ok.inj h)
        simp_all
  | plain dollar =>
      simp only [ScanState.step, stepPlain] at h
      simp only [under, ScanState.step, stepPlain, hempty]
      repeat' split at h
      all_goals
        first
        | obtain ⟨rfl, -⟩ := Prod.mk.inj (Except.ok.inj h)
          simp [*]
        | cases h

/-- Inside brackets a text is scanned as it is outside, and no mark of it is on top. -/
theorem Reads.under {s s' : ScanState} {x : List Char} {ms : List Mark} (h : Reads s x ms s')
    (b : Char) (outer : List Char) :
    Reads (s.under (b :: outer)) x (x.map (.of · false)) (s'.under (b :: outer)) := by
  induction h with
  | nil => exact .nil
  | cons hstep _ ih => exact .cons (ScanState.step_under hstep b outer) ih

/-! ## Whole texts -/

/-- The scanner goes through a text from plain text to plain text, and there is no comma on top. -/
def Whole (x : List Char) : Prop :=
  ∃ ms, Reads ⟨.plain false, []⟩ x ms ⟨.plain false, []⟩ ∧ ∀ m ∈ ms, m.top = true → m.char ≠ ','

theorem Spelled.whole {l : Level} {x : List Char} {ms : List Mark} (h : Spelled l x ms) : Whole x :=
  ⟨ms, h.reads, h.comma⟩

namespace Whole

variable {x y : List Char}

theorem nested (h : Whole x) : Nested x := by
  obtain ⟨ms, hms, -⟩ := h
  exact hms.under

theorem append (hx : Whole x) (hy : Whole y) : Whole (x ++ y) := by
  obtain ⟨ms, hms, hmcomma⟩ := hx
  obtain ⟨ns, hns, hncomma⟩ := hy
  refine ⟨ms ++ ns, hms.append hns, fun m hm => ?_⟩
  exact (List.mem_append.1 hm).elim (hmcomma m) (hncomma m)

/-- Characters that open and close nothing. -/
theorem of_ordinary (h : ∀ c ∈ x, Ordinary c ∧ c ≠ ',') : Whole x := by
  refine ⟨_, Reads.ordinary (fun c hc => (h c hc).1) [], fun m hm _ => ?_⟩
  obtain ⟨c, hc, rfl⟩ := List.mem_map.1 hm
  exact (h c hc).2

theorem of_blanks (h : Text.Blanks x) : Whole x := by
  refine of_ordinary fun c hc => ⟨ordinary_of_isBlank (h c hc), ?_⟩
  rintro rfl
  cases h ',' hc

theorem of_identChars (h : ∀ c ∈ x, isIdentChar c = true) : Whole x := by
  refine of_ordinary fun c hc => ⟨ordinary_of_isIdentChar (h c hc), ?_⟩
  rintro rfl
  cases h ',' hc

/-- Blanks around a text do not matter. -/
theorem of_trim (h : Whole (Text.trim x)) : Whole x := by
  obtain ⟨p, q, heq, hp, hq⟩ := Text.exists_trim x
  rw [heq]
  exact ((of_blanks hp).append h).append (of_blanks hq)

theorem parentheses (h : Nested x) : Whole ('(' :: x ++ [')']) :=
  (Spelled.parentheses h).whole

theorem brackets (h : Whole x) : Whole ('[' :: (x ++ [']'])) := by
  refine ⟨.of '[' true :: (x.map (.of · false) ++ [.of ']' true]),
    .cons rfl ((h.nested '[' []).append (.single rfl)), fun m hm htop => ?_⟩
  exact comma_brackets (by decide) hm htop

end Whole

end ColumnTree.Formula
