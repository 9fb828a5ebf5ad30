/-
# What stands in brackets

The scanner looks at no open bracket but the innermost one, and at that only to close it.  So a step
under open brackets is the step that it would be without them, or else it closes the innermost of them
(`ScanState.step_under_cases`); and a run that closes a bracket goes through a text that can be scanned
alone, and over the closing bracket behind it (`Reads.exists_close`).

A `Group` is a bracket with the one that matches it.  Which one that is is said by the brackets that
are open after each character, so that it is a result and not a matter of definition that what stands
in it is accepted alone (`Group.exists_scans`).
-/
import ColumnTree.Proofs.Formula.Whole

namespace ColumnTree.Formula

/-! ## Steps under open brackets -/

namespace ScanState

theorem step_square (d : Bool) (stack : List Char) (o : Nat) :
    step ⟨.plain d, stack⟩ o '[' = .ok (⟨.plain false, '[' :: stack⟩, stack.isEmpty) := by
  cases d <;> rfl

/-- A closing bracket in plain text. -/
theorem step_closing {c : Char} (hc : c ∈ [')', ']']) (d : Bool) (b : Char) (stack : List Char)
    (o : Nat) : step ⟨.plain d, b :: stack⟩ o c =
      if b = opening c then .ok (⟨.plain false, stack⟩, stack.isEmpty)
      else .error (.unbalanced c o) := by
  simp only [List.mem_cons, List.not_mem_nil, or_false] at hc
  rcases hc with rfl | rfl <;> simp [step, stepPlain]

/-- Nothing is refused but a closing bracket that does not match. -/
theorem exists_of_step_error {s : ScanState} {o : Nat} {c : Char} {e : SyntaxFault}
    (h : s.step o c = .error e) :
    c ∈ [')', ']'] ∧ ∃ d, s.mode = .plain d ∧ ∀ rest, s.stack ≠ opening c :: rest := by
  obtain ⟨mode, stack⟩ := s
  cases mode with
  | name depth =>
      rw [step_name] at h
      split at h <;> cases h
  | quoted quote escaped =>
      simp only [step] at h
      repeat' split at h
      all_goals cases h
  | plain d =>
      simp only [step, stepPlain] at h
      repeat' split at h
      case h_1.isFalse hc _ _ _ hb =>
        exact ⟨by simpa using hc, d, rfl, fun rest heq => hb (List.cons.inj heq).1⟩
      case h_2 hc _ =>
        exact ⟨by simpa using hc, d, rfl, fun rest heq => List.cons_ne_nil _ rest heq.symm⟩
      all_goals cases h

/-- A step inside brackets is one without them, or it closes the innermost one. -/
theorem step_under_cases {s s' : ScanState} {o : Nat} {b c : Char} {outer : List Char} {top : Bool}
    (h : (s.under (b :: outer)).step o c = .ok (s', top)) :
    (∃ r t, s.step o c = .ok (r, t) ∧ s' = r.under (b :: outer) ∧ top = false) ∨
      ∃ d, s = ⟨.plain d, []⟩ ∧ c ∈ [')', ']'] ∧ b = opening c ∧ s' = ⟨.plain false, outer⟩ ∧
        top = outer.isEmpty := by
  cases hstep : s.step o c with
  | ok r =>
      rw [step_under hstep] at h
      obtain ⟨rfl, rfl⟩ := Prod.mk.inj (Except.ok.inj h)
      exact .inl ⟨r.1, r.2, rfl, rfl, rfl⟩
  | error e =>
      -- Alone the bracket would close nothing.
      obtain ⟨hc, d, hmode, hstack⟩ := exists_of_step_error hstep
      obtain ⟨mode, stack⟩ := s
      obtain rfl : mode = .plain d := hmode
      cases stack with
      | nil =>
          rw [under, List.nil_append, step_closing hc] at h
          split at h
          · next hb =>
            obtain ⟨rfl, rfl⟩ := Prod.mk.inj (Except.ok.inj h)
            exact .inr ⟨d, rfl, hc, hb, rfl, rfl⟩
          · cases h
      | cons a stack =>
          rw [under, List.cons_append, step_closing hc, if_neg] at h
          · cases h
          · rintro rfl
            exact hstack stack rfl

end ScanState

/-! ## Runs that close a bracket -/

namespace Reads

/-- A run that closes an open bracket goes through a text that is scanned as it would be alone, then
over the closing bracket. -/
theorem exists_close {s s' : ScanState} {b : Char} {outer x : List Char} {ms : List Mark}
    (h : Reads (s.under (b :: outer)) x ms s') (hs' : s'.stack.length ≤ outer.length) :
    ∃ inner c rest ns d ks, x = inner ++ c :: rest ∧ Reads s inner ns ⟨.plain d, []⟩ ∧
      c ∈ [')', ']'] ∧ b = opening c ∧
      ms = inner.map (.of · false) ++ .of c outer.isEmpty :: ks ∧
      Reads ⟨.plain false, outer⟩ rest ks s' := by
  induction x generalizing s ms with
  | nil =>
      cases h
      simp only [ScanState.under, List.length_append, List.length_cons] at hs'
      omega
  | cons a x ih =>
      cases h with
      | cons hstep hrest =>
          rcases ScanState.step_under_cases hstep with
            ⟨r, t, hr, rfl, rfl⟩ | ⟨d, rfl, hc, hb, rfl, rfl⟩
          · obtain ⟨inner, c, rest, ns, d, ks, rfl, hns, hc, hb, rfl, hks⟩ := ih hrest
            exact ⟨a :: inner, c, rest, _, d, ks, rfl, .cons hr hns, hc, hb, rfl, hks⟩
          · exact ⟨[], a, x, [], d, _, rfl, .nil, hc, hb, rfl, hrest⟩

/-- A text that is scanned alone is scanned up to a closing bracket that matches. -/
theorem close {inner outer : List Char} {ns : List Mark} {d : Bool} {c : Char}
    (h : Reads .start inner ns ⟨.plain d, []⟩) (hc : c ∈ [')', ']']) :
    Reads ⟨.plain false, opening c :: outer⟩ (inner ++ [c])
      (inner.map (.of · false) ++ [.of c outer.isEmpty]) ⟨.plain false, outer⟩ :=
  (h.under (opening c) outer).append
    (.single ((ScanState.step_closing hc d _ outer 0).trans (if_pos rfl)))

end Reads

/-! ## Groups -/

/-- After a text the scanner has these brackets open, the innermost first. -/
def Open (x stack : List Char) : Prop :=
  ∃ ms mode, Reads .start x ms ⟨mode, stack⟩

theorem Open.unique {x stack stack' : List Char} (h : Open x stack) (h' : Open x stack') :
    stack = stack' := by
  obtain ⟨ms, mode, h⟩ := h
  obtain ⟨ms', mode', h'⟩ := h'
  exact (ScanState.mk.inj (h.unique h').2).2

/-- A bracket behind a text is opened: it stands in plain text, inside the brackets `outer`, and is
not the parenthesis of a reference. -/
def Opens (x : List Char) (b : Char) (outer : List Char) : Prop :=
  ∃ ms d, Reads .start x ms ⟨.plain d, outer⟩ ∧ (b = '[' ∨ b = '(' ∧ d = false)

theorem Opens.exists_reads {x outer : List Char} {b : Char} (h : Opens x b outer) :
    ∃ ms, Reads .start (x ++ [b]) ms ⟨.plain false, b :: outer⟩ := by
  obtain ⟨ms, d, hreads, rfl | ⟨rfl, rfl⟩⟩ := h
  · exact ⟨_, hreads.append (.single (ScanState.step_square d outer 0))⟩
  · exact ⟨_, hreads.append (.single rfl)⟩

/-- What follows the bracket is scanned inside it. -/
theorem Opens.open_append {x y outer : List Char} {b : Char} {s : ScanState} {ms : List Mark}
    (h : Opens x b outer) (hy : Reads ⟨.plain false, b :: outer⟩ y ms s) :
    Open (x ++ b :: y) s.stack := by
  obtain ⟨ks, hks⟩ := h.exists_reads
  exact ⟨_, s.mode, by simpa using hks.append hy⟩

theorem Opens.exists_reads_of_append {x y outer : List Char} {b : Char} {s : ScanState}
    {ms : List Mark} (h : Opens x b outer) (hreads : Reads .start (x ++ b :: y) ms s) :
    ∃ ns, Reads ⟨.plain false, b :: outer⟩ y ns s := by
  obtain ⟨ks, hks⟩ := h.exists_reads
  rw [← List.singleton_append, ← List.append_assoc] at hreads
  obtain ⟨_, _, ns, rfl, hks', hns⟩ := hreads.cut_text
  obtain ⟨-, rfl⟩ := hks.unique hks'
  exact ⟨ns, hns⟩

/-- Behind a text stands a bracket, then a text in which it stays open, and then the bracket that
closes it. -/
structure Group (outer x : List Char) (b : Char) (inner : List Char) (c : Char) : Prop where
  /-- The bracket is opened. -/
  opens : Opens x b outer
  /-- It is open after every part of what stands in it. -/
  kept : ∀ y, y <+: inner → ∃ more, Open (x ++ b :: y) (more ++ b :: outer)
  /-- Then it is closed. -/
  closed : Open (x ++ b :: (inner ++ [c])) outer

/-- A bracket that is opened in a text that is accepted has its group. -/
theorem Opens.exists_group {x y outer : List Char} {b : Char} {ms : List Mark}
    (h : Opens x b outer) (hscan : Scans (x ++ b :: y) ms) :
    ∃ inner c rest, y = inner ++ c :: rest ∧ c ∈ [')', ']'] ∧ b = opening c ∧
      Group outer x b inner c := by
  obtain ⟨d, hreads⟩ := hscan
  obtain ⟨ns, hns⟩ := h.exists_reads_of_append hreads
  obtain ⟨inner, c, rest, is, e, _, rfl, his, hc, rfl, -, -⟩ :=
    Reads.exists_close (s := .start) hns (Nat.zero_le _)
  refine ⟨inner, c, rest, rfl, hc, rfl, h, ?_, h.open_append (his.close hc)⟩
  rintro y ⟨z, rfl⟩
  obtain ⟨ys, r, _, -, hys, -⟩ := his.cut_text
  exact ⟨r.stack, h.open_append (hys.under (opening c) outer)⟩

/-- What stands in a group is accepted alone. -/
theorem Group.exists_scans {outer x inner : List Char} {b c : Char}
    (h : Group outer x b inner c) : ∃ ns, Scans inner ns := by
  obtain ⟨ms, mode, hreads⟩ := h.closed
  obtain ⟨ns, hns⟩ := h.opens.exists_reads_of_append hreads
  obtain ⟨part, a, rest, is, d, _, heq, his, ha, rfl, -, -⟩ :=
    Reads.exists_close (s := .start) hns (Nat.le_refl _)
  rcases List.eq_nil_or_concat rest with rfl | ⟨rest, e, rfl⟩
  · obtain ⟨rfl, -⟩ := List.append_inj' heq rfl
    exact ⟨is, d, his⟩
  · -- Otherwise the bracket would have been closed inside.
    rw [List.concat_eq_append, ← List.cons_append, ← List.append_assoc] at heq
    obtain ⟨rfl, -⟩ := List.append_inj' heq rfl
    obtain ⟨more, hkept⟩ := h.kept (part ++ [a]) ⟨rest, by simp⟩
    have hlength := congrArg List.length ((h.opens.open_append (his.close ha)).unique hkept)
    simp only [List.length_append, List.length_cons] at hlength
    omega

end ColumnTree.Formula
