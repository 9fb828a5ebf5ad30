/-
# Plain text

Most characters open and close nothing.  The scanner passes over them without a change of state, and
a part of a text that begins and ends in plain text can be scanned alone.  Where a mark is on top the
scanner was in plain text, outside all brackets (`ScanState.eq_plain_of_top`).
-/
import ColumnTree.Proofs.Formula.Reading
import ColumnTree.Proofs.Text.Blank

namespace ColumnTree.Formula

/-- What is said of all members of a list is decided by going through the list, also where the type
is finite. -/
scoped instance (priority := high) decidableMembers {α : Type} {p : α → Prop} [DecidablePred p]
    (l : List α) : Decidable (∀ a ∈ l, p a) :=
  List.decidableBAll p l

/-- A character that opens and closes nothing. -/
def Ordinary (c : Char) : Prop :=
  c ∉ ['(', ')', '[', ']', '"', '\'', '$']

instance (c : Char) : Decidable (Ordinary c) :=
  inferInstanceAs (Decidable (c ∉ ['(', ')', '[', ']', '"', '\'', '$']))

theorem Ordinary.ne_close {c : Char} (h : Ordinary c) : c ≠ ')' ∧ c ≠ ']' := by
  constructor <;> rintro rfl <;> exact absurd h (by decide)

theorem ordinary_of_isBlank {c : Char} (h : Text.isBlank c = true) : Ordinary c := by
  intro hc
  simp only [List.mem_cons, List.not_mem_nil, or_false] at hc
  rcases hc with rfl | rfl | rfl | rfl | rfl | rfl | rfl <;> cases h

theorem ordinary_of_isIdentChar {c : Char} (h : isIdentChar c = true) : Ordinary c := by
  intro hc
  simp only [List.mem_cons, List.not_mem_nil, or_false] at hc
  rcases hc with rfl | rfl | rfl | rfl | rfl | rfl | rfl <;> cases h

/-- No blank is a character of identifiers. -/
theorem isIdentChar_of_isBlank {c : Char} (h : Text.isBlank c = true) : isIdentChar c = false := by
  rw [isIdentChar, Text.isAlphanumeric_of_isBlank h, Bool.false_or, beq_eq_false_iff_ne]
  rintro rfl
  cases h

theorem isBlank_of_isIdentChar {c : Char} (h : isIdentChar c = true) : Text.isBlank c = false := by
  rw [← Bool.not_eq_true]
  intro hblank
  rw [isIdentChar_of_isBlank hblank] at h
  cases h

theorem isIdentChar_of_isDigit {c : Char} (h : c.isDigit = true) : isIdentChar c = true := by
  have hdigit := Text.toNat_of_isDigit h
  rw [isIdentChar, Text.isAlphanumeric, Text.isNumeric, if_pos (by omega), h, Bool.or_true,
    Bool.true_or]

theorem isAlphabetic_of_isDigit {c : Char} (h : c.isDigit = true) :
    Text.isAlphabetic c = false := by
  have hdigit := Text.toNat_of_isDigit h
  rw [Text.isAlphabetic, if_pos (by omega), ← Bool.not_eq_true]
  intro hc
  have := Text.toNat_of_isAlpha hc
  omega

/-! ## States -/

namespace ScanState

/-- The states that the scanner can be in: in a name at least one parenthesis is open, and a text
literal began with a quote. -/
def Proper (s : ScanState) : Prop :=
  match s.mode with
  | .plain _ => True
  | .quoted q _ => q = '"' ∨ q = '\''
  | .name depth => depth ≠ 0

theorem Proper.step {s s' : ScanState} {o : Nat} {c : Char} {top : Bool} (hs : s.Proper)
    (h : s.step o c = .ok (s', top)) : s'.Proper := by
  obtain ⟨mode, stack⟩ := s
  cases mode with
  | name depth =>
      simp only [ScanState.step] at h
      generalize (if c = '(' then depth + 1 else if c = ')' then depth - 1 else depth) = n at h
      split at h
      · obtain ⟨rfl, -⟩ := Prod.mk.inj (Except.ok.inj h)
        exact trivial
      · next hn =>
        obtain ⟨rfl, -⟩ := Prod.mk.inj (Except.ok.inj h)
        exact hn
  | quoted quote escaped =>
      simp only [ScanState.step] at h
      repeat' split at h
      all_goals
        obtain ⟨rfl, -⟩ := Prod.mk.inj (Except.ok.inj h)
        first | exact hs | exact trivial
  | plain dollar =>
      simp only [ScanState.step, stepPlain] at h
      repeat' split at h
      case isFalse.isTrue hq =>
        obtain ⟨rfl, -⟩ := Prod.mk.inj (Except.ok.inj h)
        simpa [Proper] using hq
      case isTrue =>
        obtain ⟨rfl, -⟩ := Prod.mk.inj (Except.ok.inj h)
        exact Nat.one_ne_zero
      all_goals
        first
        | obtain ⟨rfl, -⟩ := Prod.mk.inj (Except.ok.inj h)
          exact trivial
        | cases h

/-- An ordinary character in plain text. -/
theorem step_ordinary {c : Char} (hc : Ordinary c) (d : Bool) (stack : List Char) (o : Nat) :
    step ⟨.plain d, stack⟩ o c = .ok (⟨.plain false, stack⟩, stack.isEmpty) := by
  simp only [Ordinary, List.mem_cons, List.not_mem_nil, or_false, not_or] at hc
  simp [step, stepPlain, hc]

/-- An ordinary character leaves names and texts as they are. -/
theorem eq_plain_of_step_ordinary {s : ScanState} {o : Nat} {c : Char} {d top : Bool}
    {stack : List Char} (hs : s.Proper) (hc : Ordinary c)
    (h : s.step o c = .ok (⟨.plain d, stack⟩, top)) : ∃ d', s = ⟨.plain d', stack⟩ := by
  simp only [Ordinary, List.mem_cons, List.not_mem_nil, or_false, not_or] at hc
  obtain ⟨mode, stack'⟩ := s
  cases mode with
  | plain d' =>
      rw [step_ordinary (by simpa [Ordinary] using hc)] at h
      obtain ⟨heq, -⟩ := Prod.mk.inj (Except.ok.inj h)
      obtain ⟨-, rfl⟩ := ScanState.mk.inj heq
      exact ⟨d', rfl⟩
  | quoted quote escaped =>
      have hne : c ≠ quote := by
        rintro rfl
        rcases hs with rfl | rfl
        · exact hc.2.2.2.2.1 rfl
        · exact hc.2.2.2.2.2.1 rfl
      simp only [step, if_neg hne] at h
      repeat' split at h
      all_goals simp at h
  | name depth =>
      simp only [step, if_neg hc.1, if_neg hc.2.1, if_neg (show depth ≠ 0 from hs)] at h
      simp at h

/-- A mark on top, unless a bracket is closed there, was seen in plain text outside all
brackets. -/
theorem eq_plain_of_top {s s' : ScanState} {o : Nat} {c : Char} (hs : s.Proper)
    (hc : c ≠ ')' ∧ c ≠ ']') (h : s.step o c = .ok (s', true)) : ∃ d, s = ⟨.plain d, []⟩ := by
  obtain ⟨mode, stack⟩ := s
  cases mode with
  | plain d =>
      cases stack with
      | nil => exact ⟨d, rfl⟩
      | cons b rest =>
          simp only [step, stepPlain] at h
          repeat' split at h
          all_goals simp_all
  | quoted quote escaped =>
      simp only [step] at h
      repeat' split at h
      all_goals simp at h
  | name depth =>
      have hdepth : (if c = '(' then depth + 1 else if c = ')' then depth - 1 else depth) ≠ 0 := by
        rw [if_neg hc.1]
        split
        · exact Nat.succ_ne_zero depth
        · exact hs
      simp only [step, if_neg hdepth] at h
      simp at h

end ScanState

/-! ## Runs over plain text -/

namespace Reads

theorem proper {s s' : ScanState} {x : List Char} {ms : List Mark} (h : Reads s x ms s')
    (hs : s.Proper) : s'.Proper := by
  induction h with
  | nil => exact hs
  | cons hstep _ ih => exact ih (hs.step hstep)

/-- Ordinary characters are all on top, or none of them is. -/
theorem ordinary {x : List Char} (h : ∀ c ∈ x, Ordinary c) (stack : List Char) :
    Reads ⟨.plain false, stack⟩ x (x.map (.of · stack.isEmpty)) ⟨.plain false, stack⟩ := by
  induction x with
  | nil => exact .nil
  | cons c x ih =>
      exact .cons (ScanState.step_ordinary (h c (List.mem_cons_self ..)) false stack 0)
        (ih fun c' hc' => h c' (List.mem_cons_of_mem _ hc'))

/-- What ends in plain text after blanks was in plain text before them. -/
theorem eq_plain_of_blanks {s : ScanState} {x : List Char} {ms : List Mark} {d : Bool}
    (h : Reads s x ms ⟨.plain d, []⟩) (hs : s.Proper) (hx : Text.Blanks x) :
    ∃ d', s = ⟨.plain d', []⟩ := by
  induction x generalizing s ms with
  | nil =>
      cases h
      exact ⟨d, rfl⟩
  | cons c x ih =>
      cases h with
      | cons hstep hrest =>
          obtain ⟨d', rfl⟩ := ih hrest (hs.step hstep) fun c' hc' =>
            hx c' (List.mem_cons_of_mem _ hc')
          exact ScanState.eq_plain_of_step_ordinary hs
            (ordinary_of_isBlank (hx c (List.mem_cons_self ..))) hstep

/-- A text is scanned alone up to a mark on top that closes no bracket. -/
theorem before_top {s s' : ScanState} {x : List Char} {ms ns : List Mark} {m : Mark}
    (h : Reads s x (ms ++ m :: ns) s') (hs : s.Proper) (htop : m.top = true)
    (hc : m.char ≠ ')' ∧ m.char ≠ ']') :
    ∃ d, Reads s (textOf ms) ms ⟨.plain d, []⟩ ∧
      Reads ⟨.plain d, []⟩ (textOf (m :: ns)) (m :: ns) s' := by
  obtain ⟨t, hms, hns⟩ := h.cut
  obtain ⟨t', hstep, -⟩ := hns.head
  rw [htop] at hstep
  obtain ⟨d, rfl⟩ := ScanState.eq_plain_of_top (hms.proper hs) hc hstep
  exact ⟨d, hms, hns⟩

/-- Ordinary characters on top are passed over. -/
theorem after_ordinary {s' : ScanState} {x : List Char} {m : Mark} {ms ns : List Mark} {d : Bool}
    (h : Reads ⟨.plain d, []⟩ x (m :: (ms ++ ns)) s') (hord : ∀ n ∈ m :: ms, Ordinary n.char) :
    Reads ⟨.plain false, []⟩ (textOf ns) ns s' := by
  obtain ⟨t, hstep, hrest⟩ := h.head
  rw [ScanState.step_ordinary (hord m (List.mem_cons_self ..))] at hstep
  obtain ⟨rfl, -⟩ := Prod.mk.inj (Except.ok.inj hstep)
  obtain ⟨t, hms, hns⟩ := hrest.cut
  have hplain : ∀ c ∈ textOf ms, Ordinary c := by
    intro c hc
    obtain ⟨n, hn, rfl⟩ := List.mem_map.1 hc
    exact hord n (List.mem_cons_of_mem _ hn)
  obtain ⟨-, rfl⟩ := (ordinary hplain []).unique hms
  exact hns

/-- The blanks around a text can be left out. -/
theorem trim {s : List Char} {ms : List Mark} {d : Bool}
    (h : Reads .start s ms ⟨.plain d, []⟩) :
    ∃ x ms' y, ms = x ++ ms' ++ y ∧ Text.Blanks (textOf x) ∧ Text.Blanks (textOf y) ∧
      Scans (Text.trim s) ms' := by
  obtain ⟨x, y, heq, hx, hy⟩ := Text.exists_trim s
  rw [heq, List.append_assoc] at h
  obtain ⟨mx, t, mrest, rfl, hmx, hrest⟩ := h.cut_text
  obtain ⟨-, rfl⟩ := (ordinary (fun c hc => ordinary_of_isBlank (hx c hc)) []).unique hmx
  obtain ⟨ms', t, my, rfl, hms', hmy⟩ := hrest.cut_text
  obtain ⟨d', rfl⟩ := hmy.eq_plain_of_blanks (hms'.proper trivial) hy
  exact ⟨mx, ms', my, (List.append_assoc ..).symm, by rwa [hmx.textOf_eq], by rwa [hmy.textOf_eq],
    d', hms'⟩

end Reads

end ColumnTree.Formula
