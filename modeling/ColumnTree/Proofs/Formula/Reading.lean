/-
# Scanning without offsets

The scanner tells each character its offset, but no decision rests on it.  `Reads s x ms s'` says
that the scanner goes from one state to another over a text and leaves these marks, all of them at
offset 0.  Unlike a run of `scan` it can be taken apart at every character and put together again,
and it does not matter where in a text the part stands.

`Scans t ms` is a whole run: `scan` succeeds on `t`, and its marks are `ms` but for the offsets.
-/
import ColumnTree.Formula.Grammar

namespace ColumnTree.Formula

/-- The mark without its offset. -/
def Mark.unplaced (m : Mark) : Mark :=
  { m with offset := 0 }

/-- A character on top, or not, without its offset. -/
def Mark.of (c : Char) (top : Bool) : Mark :=
  ⟨0, c, top⟩

@[simp] theorem Mark.char_unplaced (m : Mark) : m.unplaced.char = m.char := rfl

@[simp] theorem Mark.top_unplaced (m : Mark) : m.unplaced.top = m.top := rfl

@[simp] theorem Mark.char_of (c : Char) (top : Bool) : (Mark.of c top).char = c := rfl

@[simp] theorem Mark.top_of (c : Char) (top : Bool) : (Mark.of c top).top = top := rfl

theorem textOf_append (ms ms' : List Mark) : textOf (ms ++ ms') = textOf ms ++ textOf ms' :=
  List.map_append

@[simp] theorem textOf_unplaced (ms : List Mark) : textOf (ms.map Mark.unplaced) = textOf ms := by
  simp [textOf, Function.comp_def]

/-! ## Parts of a run -/

/-- The scanner goes from one state to another over a text. -/
inductive Reads : ScanState → List Char → List Mark → ScanState → Prop where
  | nil {s : ScanState} : Reads s [] [] s
  | cons {s s' s'' : ScanState} {c : Char} {top : Bool} {x : List Char} {ms : List Mark} :
      s.step 0 c = .ok (s', top) → Reads s' x ms s'' →
        Reads s (c :: x) (.of c top :: ms) s''

namespace Reads

theorem single {s s' : ScanState} {c : Char} {top : Bool} (h : s.step 0 c = .ok (s', top)) :
    Reads s [c] [.of c top] s' :=
  .cons h .nil

theorem append {s s' s'' : ScanState} {x y : List Char} {ms ms' : List Mark}
    (h : Reads s x ms s') (h' : Reads s' y ms' s'') : Reads s (x ++ y) (ms ++ ms') s'' := by
  induction h with
  | nil => exact h'
  | cons hstep _ ih => exact .cons hstep (ih h')

theorem textOf_eq {s s' : ScanState} {x : List Char} {ms : List Mark} (h : Reads s x ms s') :
    textOf ms = x := by
  induction h with
  | nil => rfl
  | cons _ _ ih => exact congrArg _ ih

/-- A text has one run from each state. -/
theorem unique {s s' t' : ScanState} {x : List Char} {ms ns : List Mark} (h : Reads s x ms s')
    (h' : Reads s x ns t') : ms = ns ∧ s' = t' := by
  induction h generalizing ns with
  | nil =>
      cases h'
      exact ⟨rfl, rfl⟩
  | cons hstep _ ih =>
      cases h' with
      | cons hstep' hrest =>
          obtain ⟨rfl, rfl⟩ := Prod.mk.inj (Except.ok.inj (hstep.symm.trans hstep'))
          obtain ⟨rfl, rfl⟩ := ih hrest
          exact ⟨rfl, rfl⟩

/-- A run can be cut between any two of its marks. -/
theorem cut {s s'' : ScanState} {x : List Char} {ms ns : List Mark}
    (h : Reads s x (ms ++ ns) s'') :
    ∃ s', Reads s (textOf ms) ms s' ∧ Reads s' (textOf ns) ns s'' := by
  induction ms generalizing s x with
  | nil => exact ⟨s, .nil, by rwa [show textOf ns = x from h.textOf_eq]⟩
  | cons m ms ih =>
      cases h with
      | cons hstep hrest =>
          obtain ⟨s', h₁, h₂⟩ := ih hrest
          exact ⟨s', .cons hstep h₁, h₂⟩

/-- A run over two texts is one over the first and then one over the second. -/
theorem cut_text {s s'' : ScanState} {x y : List Char} {ms : List Mark}
    (h : Reads s (x ++ y) ms s'') :
    ∃ ms₁ s' ms₂, ms = ms₁ ++ ms₂ ∧ Reads s x ms₁ s' ∧ Reads s' y ms₂ s'' := by
  induction x generalizing s ms with
  | nil => exact ⟨[], s, ms, rfl, .nil, h⟩
  | cons c x ih =>
      cases h with
      | cons hstep hrest =>
          obtain ⟨ms₁, s', ms₂, rfl, h₁, h₂⟩ := ih hrest
          exact ⟨_, s', ms₂, rfl, .cons hstep h₁, h₂⟩

theorem head {s s'' : ScanState} {x : List Char} {m : Mark} {ms : List Mark}
    (h : Reads s x (m :: ms) s'') :
    ∃ s', s.step 0 m.char = .ok (s', m.top) ∧ Reads s' (textOf ms) ms s'' := by
  cases h with
  | cons hstep hrest =>
      refine ⟨_, hstep, ?_⟩
      rwa [hrest.textOf_eq]

end Reads

/-! ## Whole runs -/

namespace ScanState

/-- No step that succeeds depends on the offset. -/
theorem step_eq_ok_of_offset {s : ScanState} {o o' : Nat} {c : Char} {r : ScanState × Bool}
    (h : s.step o c = .ok r) : s.step o' c = .ok r := by
  obtain ⟨mode, stack⟩ := s
  cases mode with
  | name depth => exact h
  | quoted quote escaped => exact h
  | plain dollar =>
      simp only [step, stepPlain] at h ⊢
      split
      · next h₁ => rwa [if_pos h₁] at h
      · next h₁ =>
        rw [if_neg h₁] at h
        split
        · next h₂ => rwa [if_pos h₂] at h
        · next h₂ =>
          rw [if_neg h₂] at h
          split
          · next h₃ => rwa [if_pos h₃] at h
          · next h₃ =>
            rw [if_neg h₃] at h
            split
            · next h₄ =>
              rw [if_pos h₄] at h
              cases stack with
              | nil => cases h
              | cons b rest =>
                  dsimp only at h ⊢
                  split
                  · next h₅ => rwa [if_pos h₅] at h
                  · next h₅ => rw [if_neg h₅] at h; cases h
            · next h₄ => rwa [if_neg h₄] at h

/-- A run may end here: outside all names, texts and brackets. -/
theorem finish_eq_ok_iff {s : ScanState} : s.finish = .ok () ↔ ∃ d, s = ⟨.plain d, []⟩ := by
  obtain ⟨mode, stack⟩ := s
  cases mode with
  | name depth => simp [finish]
  | quoted quote escaped => simp [finish]
  | plain dollar => cases stack <;> simp [finish]

end ScanState

theorem scanFrom_eq_ok_iff {s : ScanState} {o : Nat} {x : List Char} {marks : List Mark} :
    (∃ marks', scanFrom s o x = .ok marks' ∧ marks'.map Mark.unplaced = marks) ↔
      ∃ d, Reads s x marks ⟨.plain d, []⟩ := by
  induction x generalizing s o marks with
  | nil =>
      constructor
      · rintro ⟨marks', h, rfl⟩
        rw [scanFrom] at h
        cases hf : s.finish with
        | error e => rw [hf] at h; cases h
        | ok u =>
            rw [hf] at h
            obtain rfl := Except.ok.inj h
            obtain ⟨d, rfl⟩ := ScanState.finish_eq_ok_iff.1 hf
            exact ⟨d, .nil⟩
      · rintro ⟨d, h⟩
        cases h
        exact ⟨[], rfl, rfl⟩
  | cons c x ih =>
      constructor
      · rintro ⟨marks', h, rfl⟩
        rw [scanFrom] at h
        cases hs : s.step o c with
        | error e => rw [hs] at h; cases h
        | ok r =>
            rw [hs] at h
            cases hr : scanFrom r.1 (o + c.utf8Size) x with
            | error e => simp [hr, bind, Except.bind] at h
            | ok ms =>
                simp only [hr, bind, Except.bind, pure, Except.pure, Except.ok.injEq] at h
                subst h
                obtain ⟨d, hrest⟩ := ih.1 ⟨ms, hr, rfl⟩
                exact ⟨d, .cons (ScanState.step_eq_ok_of_offset hs) hrest⟩
      · rintro ⟨d, h⟩
        cases h with
        | @cons _ s' _ _ top _ ms hstep hrest =>
            obtain ⟨ms', hms', rfl⟩ := (ih (o := o + c.utf8Size)).2 ⟨d, hrest⟩
            refine ⟨⟨o, c, top⟩ :: ms', ?_, rfl⟩
            rw [scanFrom, ScanState.step_eq_ok_of_offset hstep]
            simp [hms', bind, Except.bind, pure, Except.pure]

/-- A whole text is scanned, with these marks but for the offsets. -/
def Scans (t : List Char) (ms : List Mark) : Prop :=
  ∃ d, Reads .start t ms ⟨.plain d, []⟩

namespace Scans

theorem iff_scan {t : List Char} {ms : List Mark} :
    Scans t ms ↔ ∃ marks, scan t = .ok marks ∧ marks.map Mark.unplaced = ms :=
  scanFrom_eq_ok_iff.symm

theorem of_scan {t : List Char} {marks : List Mark} (h : scan t = .ok marks) :
    Scans t (marks.map Mark.unplaced) :=
  iff_scan.2 ⟨marks, h, rfl⟩

theorem textOf_eq {t : List Char} {ms : List Mark} (h : Scans t ms) : textOf ms = t :=
  h.choose_spec.textOf_eq

theorem unique {t : List Char} {ms ns : List Mark} (h : Scans t ms) (h' : Scans t ns) :
    ms = ns :=
  (h.choose_spec.unique h'.choose_spec).1

end Scans

end ColumnTree.Formula
