/-
# Edits with their inverses

What is found under a number, and which parent, when an edit has been made and the command that takes
it back has been applied to the tree after it.  The equations hold of every edit that does something,
and name what is not as it was: a record that was missing its aggregation comes back with one, a
record that listed itself no longer does after a move, and what a new record had adopted stays with
the parent of the new one (`find?_remove_add`).
-/
import ColumnTree.Proofs.Formula.Compiled
import ColumnTree.Proofs.Outline.Inverse

namespace ColumnTree.Outline

open Formula

/-! ## Aggregations that follow a removal -/

/-- Does some column take part? -/
def Aggregation.Active (a : Aggregation) : Prop :=
  ∃ c ∈ a.columns, c.used = true

section AfterRemoval

variable {l : Library} {name : String} {a : Aggregation} {gone : Record}

theorem Aggregation.any_used_iff : a.columns.any (·.used) = true ↔ a.Active := by
  rw [Active, List.any_eq_true]

/-- What can become of an aggregation when a child leaves, and the warnings: nothing takes part any
more, or it is custom, or its formula is made again, or none can be made. -/
theorem Aggregation.afterRemoval_cases :
    (¬ (a.without gone.id).Active ∧
        a.afterRemoval l name gone = ((a.without gone.id).cleared, [.cleared name])) ∨
      (a.without gone.id).Active ∧
        ((a.operation = .custom ∧ a.afterRemoval l name gone = (a.without gone.id,
            if a.lists gone.id || Text.occurs (reference gone.name) a.formula.toList
            then [.stale name gone.name] else [])) ∨
          (∃ formula compiled,
            generate l a.operation (a.without gone.id).columns = .valid formula compiled ∧
            a.afterRemoval l name gone =
              ({ a.without gone.id with formula, exec := compiled.exec }, [])) ∨
          ∃ reason, generate l a.operation (a.without gone.id).columns = .invalid reason ∧
            a.afterRemoval l name gone =
              ((a.without gone.id).cleared, [.notMade name reason])) := by
  by_cases h : (a.without gone.id).Active
  · refine .inr ⟨h, ?_⟩
    have hoperation : (a.without gone.id).operation = a.operation := rfl
    rw [← any_used_iff] at h
    simp only [afterRemoval, h, Bool.not_true, Bool.false_eq_true, if_false, hoperation]
    cases hgenerate : generate l a.operation (a.without gone.id).columns with
    | unchanged => exact .inl ⟨generate_eq_unchanged_iff.1 hgenerate, rfl⟩
    | valid formula compiled => exact .inr (.inl ⟨formula, compiled, rfl, rfl⟩)
    | invalid reason => exact .inr (.inr ⟨reason, rfl, rfl⟩)
  · refine .inl ⟨h, ?_⟩
    rw [← any_used_iff, Bool.not_eq_true] at h
    simp only [afterRemoval, h, Bool.not_false, if_true]

theorem Aggregation.operation_afterRemoval :
    (a.afterRemoval l name gone).1.operation = a.operation := by
  rcases a.afterRemoval_cases with ⟨-, heq⟩ | ⟨-, ⟨-, heq⟩ | ⟨_, _, -, heq⟩ | ⟨_, -, heq⟩⟩
  all_goals exact congrArg (·.1.operation) heq

theorem Aggregation.columns_afterRemoval :
    (a.afterRemoval l name gone).1.columns = (a.without gone.id).columns := by
  rcases a.afterRemoval_cases with ⟨-, heq⟩ | ⟨-, ⟨-, heq⟩ | ⟨_, _, -, heq⟩ | ⟨_, -, heq⟩⟩
  all_goals exact congrArg (·.1.columns) heq

/-- An aggregation that is taken for unchanged by a comparison of its parts is unchanged; the
weights, which need not be equal to themselves, are never changed. -/
theorem Aggregation.afterRemoval_eq_of_beq (h : ((a.afterRemoval l name gone).1 == a) = true) :
    (a.afterRemoval l name gone).1 = a := by
  have hcolumns : (a.afterRemoval l name gone).1.columns = (a.without gone.id).columns :=
    columns_afterRemoval
  generalize (a.afterRemoval l name gone).1 = after at h hcolumns
  obtain ⟨operation, formula, exec, columns⟩ := after
  obtain ⟨operation', formula', exec', columns'⟩ := a
  change (operation == operation' && (formula == formula' && (exec == exec' &&
    columns == columns'))) = true at h
  simp only [Bool.and_eq_true, beq_iff_eq] at h
  obtain ⟨rfl, rfl, rfl, hbeq⟩ := h
  -- Nothing has been filtered out, for the lists are equally long.
  have hlength : columns.length = columns'.length := List.length_eq_of_beq hbeq
  have hsub : columns.Sublist columns' := by
    rw [show columns = _ from hcolumns]
    exact List.filter_sublist
  rw [hsub.eq_of_length hlength]

end AfterRemoval

namespace Record

theorem following_eq_self {r : Record} (h : r.kind = .aggregation → r.aggregation? = none)
    (l : Library) (gone : Record) : r.following l gone = r := by
  unfold following Tree.followRemoval
  by_cases hk : r.kind = .aggregation
  · rw [if_pos hk, h hk]
    rfl
  · rw [if_neg hk]

/-- The aggregation of a record that follows a removal. -/
theorem following_of_aggregation? {r : Record} {a : Aggregation} (hk : r.kind = .aggregation)
    (ha : r.aggregation? = some a) (l : Library) (gone : Record) : r.following l gone =
      { r with aggregation? := some (a.afterRemoval l r.name gone).1 } := by
  simp only [following, Tree.followRemoval, if_pos hk, ha, Option.map_some]

theorem completed_eq_self {r : Record} (h : r.kind = .aggregation → r.aggregation? ≠ none) :
    r.completed = r := by
  unfold completed
  rw [if_neg]
  rintro ⟨hk, hnone⟩
  exact h hk (Option.isNone_iff_eq_none.1 hnone)

theorem unlisting_eq_self {r : Record} {id : RecordId}
    (h : ∀ a, r.aggregation? = some a → a.lists id = false) : r.unlisting id = r := by
  have : r.aggregation?.map (·.without id) = r.aggregation? := by
    cases ha : r.aggregation? with
    | none => rfl
    | some a => rw [Option.map_some, Aggregation.without_eq_self (h a ha)]
  unfold unlisting
  rw [this]

end Record

/-- A patch of the aggregation is always allowed. -/
theorem Patch.allowed_ofAggregation (a : Option Aggregation) (r : Record) :
    (Patch.ofAggregation a).allowed r = .ofAggregation a := by
  unfold allowed
  dsimp only
  split <;> rfl

theorem Patch.bare_apply_ofAggregation (a : Option Aggregation) (r : Record) :
    (((Patch.ofAggregation a).allowed r).apply r).bare = r.bare := by
  rw [allowed_ofAggregation]
  rfl

theorem Patch.apply_ofAggregation (a : Option Aggregation) (r : Record) :
    ((Patch.ofAggregation a).allowed r).apply r = { r with aggregation? := a } := by
  rw [allowed_ofAggregation]
  rfl

/-- What follows a removal is the aggregation. -/
theorem Record.aggregation?_following (r : Record) (l : Library) (gone : Record) :
    { r.following l gone with aggregation? := r.aggregation? } = r := by
  unfold following
  split <;> rfl

namespace Tree

/-- A removal is taken back by adding the record again, and then, if the aggregation above it has
followed, by giving that back. -/
theorem restoring_cases (l : Library) (p : RecordId) (gone r : Record) :
    (restoring l p gone r = .add p gone (some (placeOf gone.id r.children)) ∧
        r.following l gone = r) ∨
      ∃ before, r.aggregation? = some before ∧
        restoring l p gone r = .batch [.add p gone (some (placeOf gone.id r.children)),
          .update p (.ofAggregation (some before))] := by
  unfold restoring Record.following
  cases hf : followRemoval l gone r with
  | none => exact .inl ⟨rfl, rfl⟩
  | some f =>
      unfold followRemoval at hf
      split at hf
      · obtain ⟨before, hbefore, rfl⟩ := Option.map_eq_some_iff.1 hf
        dsimp only
        split
        · next hbeq =>
          refine .inl ⟨rfl, ?_⟩
          rw [Aggregation.afterRemoval_eq_of_beq hbeq, ← hbefore]
        · exact .inr ⟨before, hbefore, rfl⟩
      · cases hf

/-- Trees are alike but for an aggregation that is given or taken away. -/
theorem sameOutline_ofAggregation {t : Tree} {id : RecordId} {r : Record} (hr : t.find? id = some r)
    (a : Option Aggregation) : (t.update id (.ofAggregation a)).tree.SameOutline t := by
  refine ⟨fun q => ?_, parents_update ..⟩
  rw [outline_update hr, Patch.bare_apply_ofAggregation]
  split
  · next hq => rw [hq, outline_of_find? hr]
  · rfl

/-! ## A record that was removed -/

section Remove

variable {l : Library} {t : Tree} (h : t.WellFormed) {x p : RecordId} {gone r : Record}
  (hp : t.parent? x = some p) (hx : t.find? x = some gone) (hr : t.find? p = some r)
  (hid : gone.id = x) (hne : x ≠ rootId)

include h hp hx hr hid hne

/-- A record that was removed comes back with all that an aggregation needs. -/
theorem find?_restoring (q : RecordId) :
    ((t.remove l x).tree.apply l (restoring l p gone r)).tree.find? q =
      if q = x then some gone.completed else t.find? q := by
  have hpx : p ≠ x := (h.ne_of_mem (h.parent_iff.1 hp)).symm
  have hback := find?_add_removed (l := l) h hp hx hr hid hne
  rcases restoring_cases l p gone r with ⟨heq, hr'⟩ | ⟨before, hbefore, heq⟩
  · rw [heq, apply, hback, hr']
    by_cases hqp : q = p
    · rw [if_pos hqp, hqp, hr]
    · rw [if_neg hqp]
  · -- The aggregation that has followed is given back as it was.
    have hrp := (hback p).trans ((if_neg hpx).trans (if_pos rfl))
    rw [heq, tree_apply_pair, apply, apply, find?_update hrp, Patch.apply_ofAggregation, ← hbefore,
      Record.aggregation?_following]
    by_cases hqp : q = p
    · rw [if_pos hqp, hqp, if_neg hpx, hr]
    · rw [if_neg hqp, hback, if_neg hqp]

theorem parent?_restoring (y : RecordId) :
    ((t.remove l x).tree.apply l (restoring l p gone r)).tree.parent? y = t.parent? y := by
  have hback := parent?_add_removed (l := l) h hp hx hr hid hne
  rcases restoring_cases l p gone r with ⟨heq, -⟩ | ⟨before, -, heq⟩
  · rw [heq, apply, hback]
  · rw [heq, tree_apply_pair, apply, apply, ← hback]
    unfold parent?
    rw [parents_update]

end Remove

/-! ## A record that was moved -/

section Move

variable {t : Tree} (h : t.WellFormed) {s target old : RecordId} {r : Record}
  (hc : t.CanMove s target) (hold : t.parent? s = some old) (hr : t.find? s = some r)
  (place : Option UInt64)

include h hc hold hr

theorem find?_move_self : (t.move s target place).tree.find? s = some (r.unlisting s) := by
  have hst : s ≠ target := fun heq => hc.outside (heq ▸ .refl)
  have hkept : r.keeping (· != s) = r := by
    refine Record.keeping_eq_self fun c hcr => ?_
    rw [← children_of_find? hr] at hcr
    simpa using h.ne_of_mem hcr
  rw [find?_move h.toLinked hc hold hr]
  simp only [if_neg hst, if_true, hr, Option.map_some, hkept]

/-- The record that was moved lists itself again, and everything else stays. -/
theorem find?_update_moved {a : Aggregation} (ha : r.aggregation? = some a) (q : RecordId) :
    ((t.move s target place).tree.update s (.ofAggregation (some a))).tree.find? q =
      if q = s then some r else (t.move s target place).tree.find? q := by
  rw [find?_update (find?_move_self h hc hold hr place), Patch.apply_ofAggregation, ← ha]
  rfl

/-- A record that was moved comes back without listing itself, although it is made to list itself
again before it is moved back. -/
theorem find?_movingBack (l : Library) (q : RecordId) :
    ((t.move s target place).tree.apply l (movingBack t s old r)).tree.find? q =
      if q = s then some (r.unlisting s) else t.find? q := by
  have hback := find?_move_move h.toLinked hc hold hr place
  unfold movingBack
  cases ha : r.aggregation? with
  | none => rw [apply, hback]
  | some a =>
      dsimp only
      split
      · have hmoved := h.move s target place
        have hupdated := hmoved.update s (.ofAggregation (some a))
        have hsame := sameOutline_ofAggregation (find?_move_self h hc hold hr place) (some a)
        have hfind := find?_update_moved h hc hold hr place ha
        have hcan := canMove_moved h.toLinked hc hold hr place
        have hcan' := hsame.symm.canMove hmoved.toLinked hupdated.toLinked hcan
        rw [tree_apply_pair, apply, apply]
        by_cases hq : q = s
        · -- The second move strikes the record off its own list once more.
          obtain ⟨old', r', hold', hr'⟩ := hupdated.exists_parent_of_move hcan'
          obtain rfl := Option.some.inj (hr'.symm.trans ((hfind s).trans (if_pos rfl)))
          rw [if_pos hq, hq, find?_move_self hupdated hcan' hold' hr']
        · rw [if_neg hq, ← (hback q).trans (if_neg hq)]
          refine hsame.find?_move_eq hupdated.toLinked hmoved.toLinked hcan' _ ?_
          rw [hfind, if_neg hq]
      · rw [apply, hback]

theorem parent?_movingBack (l : Library) (x : RecordId) :
    ((t.move s target place).tree.apply l (movingBack t s old r)).tree.parent? x = t.parent? x := by
  have hback := parent?_move_move h.toLinked hc hold hr place
  unfold movingBack
  cases ha : r.aggregation? with
  | none => rw [apply, hback]
  | some a =>
      dsimp only
      split
      · have hmoved := h.move s target place
        have hupdated := hmoved.update s (.ofAggregation (some a))
        have hsame := sameOutline_ofAggregation (find?_move_self h hc hold hr place) (some a)
        rw [tree_apply_pair, apply, apply, ← hback]
        exact (hsame.move hupdated.toLinked hmoved.toLinked s old _).parent?_eq x
      · rw [apply, hback]

end Move

end Tree

end ColumnTree.Outline
