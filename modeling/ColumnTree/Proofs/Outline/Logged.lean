/-
# What is logged

A command has an inverse exactly if one of its edits does something, and takes a column away exactly
if one of them does.  So the edits of a command, each judged on the tree that it meets, say what
becomes of the log: it stays, it is emptied, or it grows by one entry that holds the whole command.
-/
import ColumnTree.Proofs.Outline.Effective
import ColumnTree.Proofs.Outline.Reached

namespace ColumnTree.Outline

open Formula

namespace Tree

section Steps

variable {l : Library}

/-- A command takes a column away exactly if one of its edits does. -/
theorem WellFormed.lostColumn_iff_steps (c : Command) {t : Tree} (h : t.WellFormed) :
    (t.apply l c).lostColumn = true ↔ ∃ s ∈ t.steps l c, s.1.TakesColumn s.2 := by
  induction c using Command.induction generalizing t with
  | edit c hc =>
      rw [steps_of_edit hc, h.lostColumn_iff hc]
      simp
  | batch cs ih =>
      rw [steps, Tree.apply]
      show (Tree.applyAll l cs t).lostColumn = true ↔ _
      induction cs generalizing t with
      | nil => simp [Tree.applyAll, stepsAll]
      | cons c rest ihrest =>
          obtain ⟨ihc, ih⟩ := List.forall_mem_cons.1 ih
          rw [Tree.applyAll, stepsAll]
          dsimp only
          rw [Bool.or_eq_true, ihc h, ihrest ih (h.apply l c)]
          simp only [List.mem_append, or_and_right, exists_or]

/-- A command of which no edit does anything is idle. -/
theorem WellFormed.apply_of_none_effective (c : Command) {t : Tree} (h : t.WellFormed)
    (hnone : ∀ s ∈ t.steps l c, ¬ s.1.Effective s.2) : t.apply l c = .idle t := by
  induction c using Command.induction generalizing t with
  | edit c hc =>
      rw [steps_of_edit hc, List.forall_mem_singleton] at hnone
      exact h.apply_of_not_effective hc hnone
  | batch cs ih =>
      rw [steps] at hnone
      rw [Tree.apply]
      suffices hall : Tree.applyAll l cs t = ⟨t, [], [], false⟩ by rw [hall]; rfl
      induction cs generalizing t with
      | nil => rw [Tree.applyAll]
      | cons c rest ihrest =>
          obtain ⟨ihc, ih⟩ := List.forall_mem_cons.1 ih
          rw [stepsAll, List.forall_mem_append] at hnone
          have hidle := ihc h hnone.1
          rw [hidle] at hnone
          rw [Tree.applyAll, hidle]
          dsimp only [Outcome.idle]
          rw [ihrest ih h hnone.2]
          rfl

/-- A command has an inverse exactly if one of its edits does something. -/
theorem WellFormed.isSome_inverse?_iff_steps (c : Command) {t : Tree} (h : t.WellFormed) :
    (t.apply l c).inverse?.isSome = true ↔ ∃ s ∈ t.steps l c, s.1.Effective s.2 := by
  induction c using Command.induction generalizing t with
  | edit c hc =>
      rw [steps_of_edit hc, h.isSome_inverse?_iff hc]
      simp
  | batch cs ih =>
      rw [steps, Tree.apply]
      have hsome : (Tree.applyAll l cs t).outcome.inverse?.isSome = true ↔
          (Tree.applyAll l cs t).inverses ≠ [] := by
        cases hinverses : (Tree.applyAll l cs t).inverses <;> simp [Run.outcome, hinverses]
      rw [hsome]
      clear hsome
      induction cs generalizing t with
      | nil => simp [Tree.applyAll, stepsAll]
      | cons c rest ihrest =>
          obtain ⟨ihc, ih⟩ := List.forall_mem_cons.1 ih
          have hfirst : (t.apply l c).inverse?.toList ≠ [] ↔
              ∃ s ∈ t.steps l c, s.1.Effective s.2 := by
            rw [← ihc h]
            cases (t.apply l c).inverse? <;> simp
          have hothers : (Tree.applyAll l rest (t.apply l c).tree).inverses ≠ [] ↔
              ∃ s ∈ stepsAll l rest (t.apply l c).tree, s.1.Effective s.2 :=
            ihrest ih (h.apply l c)
          rw [Tree.applyAll, stepsAll]
          dsimp only
          rw [ne_eq, List.append_eq_nil_iff, not_and_or, or_comm, ← ne_eq, ← ne_eq, hfirst, hothers]
          simp only [List.mem_append, or_and_right, exists_or]

end Steps

end Tree

/-! ## The log -/

namespace Editor

/-- In every editor that there can be, an edit of one record does something exactly if it is
effective, and leaves the editor without a warning if it is not; so does each edit of a command, on
the tree that it meets.  A command leaves the log if none of its edits is effective, empties it if one
of them takes a column away, and otherwise adds one entry, which holds the command. -/
theorem Reached.apply_logs {e : Editor} (h : e.Reached) :
    (∀ c, (∀ cs, c ≠ .batch cs) →
      ((e.tree.apply e.library c).inverse?.isSome = true ↔ e.tree.Effective c) ∧
        (¬ e.tree.Effective c → e.apply c = (e, []))) ∧
      ∀ c, let steps := e.tree.steps e.library c
        (∀ s ∈ steps, (∀ cs, s.2 ≠ .batch cs) ∧
          ((s.1.apply e.library s.2).inverse?.isSome = true ↔ s.1.Effective s.2)) ∧
        ((∀ s ∈ steps, ¬ s.1.Effective s.2) → e.apply c = (e, [])) ∧
        ((∃ s ∈ steps, s.1.TakesColumn s.2) → (e.apply c).1.log = []) ∧
        ((∃ s ∈ steps, s.1.Effective s.2) → (∀ s ∈ steps, ¬ s.1.TakesColumn s.2) →
          ∃ inverse, (e.apply c).1.log = ⟨c, inverse⟩ :: e.log) := by
  have hw := h.wellFormed
  have hidle : ∀ c, e.tree.apply e.library c = .idle e.tree → e.apply c = (e, []) := by
    intro c hc
    unfold Editor.apply
    rw [hc]
    rfl
  refine ⟨fun c hc => ⟨hw.isSome_inverse?_iff hc, fun hno => ?_⟩, fun c => ?_⟩
  · exact hidle c (hw.apply_of_not_effective hc hno)
  intro steps
  refine ⟨fun s hs => ?_, fun hnone => ?_, fun htakes => ?_, fun heffective hkeeps => ?_⟩
  · obtain ⟨hs, hsingle⟩ := hw.of_mem_steps c hs
    exact ⟨hsingle, hs.isSome_inverse?_iff hsingle⟩
  · exact hidle c (hw.apply_of_none_effective c hnone)
  · unfold Editor.apply
    dsimp only
    rw [if_pos ((hw.lostColumn_iff_steps c).2 htakes)]
  · obtain ⟨inverse, hinverse⟩ :=
      Option.isSome_iff_exists.1 ((hw.isSome_inverse?_iff_steps c).2 heffective)
    have hkept : ¬ (e.tree.apply e.library c).lostColumn = true := fun hlost => by
      obtain ⟨s, hs, htakes⟩ := (hw.lostColumn_iff_steps c).1 hlost
      exact hkeeps s hs htakes
    refine ⟨inverse, ?_⟩
    unfold Editor.apply
    dsimp only
    rw [if_neg hkept, hinverse]

/-- A nested batch that does nothing, one that only renames, and one that takes away a column which it
has renamed before. -/
theorem Reached.apply_logs_nested :
    let e := ((ofTree .empty (.alone "t")).apply (.add 0 (.column 1 "a") none)).1
    let rename : Command := .update 1 { Patch.empty with name := some "b" }
    e.Reached ∧ (e.apply (.batch [.remove 7, .batch [.move 1 1 none]])).1.log = e.log ∧
      (∃ inverse, (e.apply (.batch [.remove 7, .batch [rename]])).1.log =
        ⟨.batch [.remove 7, .batch [rename]], inverse⟩ :: e.log) ∧
      (e.apply (.batch [rename, .batch [.remove 1]])).1.log = [] := by
  intro e rename
  have h : e.Reached := .apply _ (.alone .empty "t")
  obtain ⟨-, hlog⟩ := Reached.apply_logs h
  have hseven : ¬ e.tree.CanRemove 7 := fun hc => absurd hc.mem (by decide)
  refine ⟨h, ?_, ?_, ?_⟩
  · obtain ⟨-, hnone, -⟩ := hlog (.batch [.remove 7, .batch [.move 1 1 none]])
    rw [hnone]
    simp only [Tree.steps, Tree.stepsAll, List.append_nil, List.singleton_append,
      List.forall_mem_cons]
    exact ⟨hseven, fun hc => hc.outside .refl, List.forall_mem_nil _⟩
  · obtain ⟨-, -, -, hsome⟩ := hlog (.batch [.remove 7, .batch [rename]])
    simp only [Tree.steps, Tree.stepsAll, rename, List.append_nil, List.singleton_append,
      List.exists_mem_cons_iff, List.forall_mem_cons] at hsome
    refine hsome (.inr (.inl ⟨?_, .inl (Option.some_ne_none _)⟩))
      ⟨fun htakes => hseven htakes.effective, id, List.forall_mem_nil _⟩
    rfl
  · obtain ⟨-, -, htakes, -⟩ := hlog (.batch [rename, .batch [.remove 1]])
    simp only [Tree.steps, Tree.stepsAll, rename, List.append_nil, List.singleton_append,
      List.exists_mem_cons_iff] at htakes
    refine htakes (.inr (.inl ⟨by decide, Option.map_eq_some_iff.1 ?_⟩))
    rfl

end Editor

end ColumnTree.Outline
