/-
# Which edits do something

An edit of one record does something exactly under a condition on the tree that it meets
(`Effective`): what it is about is there, or is not there yet if it is to be added, and the root
stays where it is and what it is.  An edit that does something has an inverse, and one that does not
is idle: it leaves the tree, raises no warning and takes away no column.

A command is gone through edit by edit, batches at every depth; each edit meets the tree that those
before it made (`steps`).
-/
import ColumnTree.Proofs.Outline.Preserve

namespace ColumnTree.Outline

open Formula

/-- Does the patch have something to set on the record of a number?  A kind counts only if it makes no
root of another record, and no other record of the root. -/
def Patch.SetsOn (p : Patch) (id : RecordId) : Prop :=
  p.name ≠ none ∨ p.dataType ≠ none ∨ p.description ≠ none ∨ p.shown ≠ none ∨
    p.aggregation ≠ none ∨ ∃ k, p.kind = some k ∧ (k = .root ↔ id = rootId)

/-- A patch keeps its kind exactly if that is no forbidden one. -/
theorem Patch.kind_allowed_eq_some_iff {r : Record} (hk : r.kind = .root ↔ r.id = rootId) (p : Patch)
    (k : Kind) :
    (p.allowed r).kind = some k ↔ p.kind = some k ∧ (k = .root ↔ r.id = rootId) := by
  unfold allowed
  dsimp only
  split
  · next hforbidden =>
    refine ⟨nofun, fun ⟨hpk, hroot⟩ => ?_⟩
    rw [hpk] at hforbidden
    rcases hforbidden with ⟨hr, hne⟩ | ⟨hid, heq⟩
    · exact absurd (hroot.2 (hk.1 hr)) (by simpa using hne)
    · exact absurd (hroot.1 (Option.some.inj heq)) hid
  · next hallowed =>
    rw [not_or, hk] at hallowed
    obtain ⟨hleaves, hbecomes⟩ := hallowed
    refine ⟨fun hpk => ⟨hpk, ?_⟩, And.left⟩
    rw [hpk] at hleaves hbecomes
    constructor
    · rintro rfl
      by_contra hid
      exact hbecomes ⟨hid, rfl⟩
    · intro hid
      by_contra hne
      exact hleaves ⟨hid, by simpa using hne⟩

theorem Patch.isEmpty_allowed_eq_false_iff {r : Record} (hk : r.kind = .root ↔ r.id = rootId)
    (p : Patch) : (p.allowed r).isEmpty = false ↔ p.SetsOn r.id := by
  have hkind : (p.allowed r).kind ≠ none ↔
      ∃ k, p.kind = some k ∧ (k = .root ↔ r.id = rootId) := by
    rw [Option.ne_none_iff_exists']
    exact exists_congr (p.kind_allowed_eq_some_iff hk)
  have hothers : p.allowed r = { p with kind := (p.allowed r).kind } := by
    unfold allowed
    dsimp only
    split <;> rfl
  rw [SetsOn, ← hkind, hothers]
  simp only [isEmpty, Bool.and_eq_false_iff, Option.isNone_eq_false_iff, Option.isSome_iff_ne_none]
  tauto

namespace Tree

/-- Does an update change something? -/
structure CanUpdate (t : Tree) (id : RecordId) (p : Patch) : Prop where
  mem : t.contains id = true
  sets : p.SetsOn id

/-- Does an edit of one record do something?  A batch is no such edit. -/
def Effective (t : Tree) : Command → Prop
  | .add parent r _ => t.CanAdd parent r
  | .remove x => t.CanRemove x
  | .update id p => t.CanUpdate id p
  | .move source target _ => t.CanMove source target
  | .batch _ => False

/-- Does an edit of one record take a column away? -/
def TakesColumn (t : Tree) : Command → Prop
  | .remove x => x ≠ rootId ∧ ∃ r, t.find? x = some r ∧ r.kind = .column
  | _ => False

theorem TakesColumn.effective {t : Tree} {c : Command} (h : t.TakesColumn c) : t.Effective c := by
  cases c with
  | remove x =>
      obtain ⟨hne, r, hr, -⟩ := h
      exact ⟨contains_iff.2 ⟨r, hr⟩, hne⟩
  | _ => exact h.elim

theorem lostColumn_remove {l : Library} {t : Tree} {x p : RecordId} {gone : Record}
    (hp : t.parent? x = some p) (hx : t.find? x = some gone) (hne : x ≠ rootId) :
    (t.remove l x).lostColumn = (gone.kind == .column) := by
  unfold remove
  simp only [hp, hx, if_neg hne]
  split <;> rfl

section Effective

variable {l : Library} {t : Tree} (h : t.WellFormed)

include h

theorem WellFormed.isEmpty_allowed_eq_false_iff {id : RecordId} {r : Record} (hr : t.find? id = some r)
    (p : Patch) : (p.allowed r).isEmpty = false ↔ p.SetsOn id := by
  have hid := h.named hr
  rw [Patch.isEmpty_allowed_eq_false_iff (by rw [hid]; exact h.kind_iff hr), hid]

theorem WellFormed.update_of_not {id : RecordId} {p : Patch} (hc : ¬ t.CanUpdate id p) :
    t.update id p = .idle t := by
  cases hr : t.find? id with
  | none => exact update_of_find?_none hr
  | some r =>
      rw [update_of_find? hr, if_pos]
      by_contra hempty
      rw [Bool.not_eq_true, h.isEmpty_allowed_eq_false_iff hr] at hempty
      exact hc ⟨contains_iff.2 ⟨r, hr⟩, hempty⟩

theorem WellFormed.inverse?_update {id : RecordId} {p : Patch} (hc : t.CanUpdate id p) :
    ∃ r, t.find? id = some r ∧
      (t.update id p).inverse? = some (.update id ((p.allowed r).capture r)) := by
  obtain ⟨r, hr⟩ := contains_iff.1 hc.mem
  have hsets := (h.isEmpty_allowed_eq_false_iff hr p).2 hc.sets
  refine ⟨r, hr, ?_⟩
  rw [update_of_find? hr, hsets]
  rfl

variable {c : Command} (hc : ∀ cs, c ≠ .batch cs)

include hc

/-- An edit of one record is idle if it is not effective. -/
theorem WellFormed.apply_of_not_effective (hno : ¬ t.Effective c) : t.apply l c = .idle t := by
  cases c with
  | add parent r place => rw [Tree.apply, add_of_not hno]
  | remove x => rw [Tree.apply, remove_of_not hno]
  | update id p => rw [Tree.apply, h.update_of_not hno]
  | move source target place => rw [Tree.apply, h.move_of_not hno]
  | batch cs => exact absurd rfl (hc cs)

theorem WellFormed.exists_inverse_of_effective (heffective : t.Effective c) :
    ∃ inverse, (t.apply l c).inverse? = some inverse := by
  cases c with
  | add parent r place =>
      rw [Tree.apply]
      exact ⟨_, CanAdd.inverse? heffective place⟩
  | remove x =>
      obtain ⟨p, gone, r, hp, hx, hr, hid⟩ := h.exists_parent_record heffective
      have hpx : p ≠ x := (h.ne_of_mem (h.parent_iff.1 hp)).symm
      rw [Tree.apply]
      exact ⟨_, inverse?_remove hp hx hr hid heffective.ne_root hpx⟩
  | update id p =>
      obtain ⟨r, -, hinv⟩ := h.inverse?_update heffective
      rw [Tree.apply]
      exact ⟨_, hinv⟩
  | move source target place =>
      obtain ⟨old, r, hold, hr⟩ := h.exists_parent_of_move heffective
      rw [Tree.apply]
      exact ⟨_, inverse?_move h.toLinked heffective hold hr place⟩
  | batch cs => exact heffective.elim

/-- An edit of one record has an inverse exactly if it is effective. -/
theorem WellFormed.isSome_inverse?_iff :
    (t.apply l c).inverse?.isSome = true ↔ t.Effective c := by
  constructor
  · intro hsome
    by_contra hno
    rw [h.apply_of_not_effective hc hno] at hsome
    cases hsome
  · intro heffective
    exact Option.isSome_iff_exists.2 (h.exists_inverse_of_effective hc heffective)

/-- Only the removal of a column takes one away. -/
theorem WellFormed.lostColumn_iff : (t.apply l c).lostColumn = true ↔ t.TakesColumn c := by
  by_cases heffective : t.Effective c
  · cases c with
    | add parent r place =>
        rw [Tree.apply, CanAdd.add_eq heffective]
        exact ⟨nofun, False.elim⟩
    | remove x =>
        obtain ⟨p, gone, r, hp, hx, hr, hid⟩ := h.exists_parent_record heffective
        rw [Tree.apply, lostColumn_remove hp hx heffective.ne_root, beq_iff_eq]
        constructor
        · intro hk
          exact ⟨heffective.ne_root, gone, hx, hk⟩
        · rintro ⟨-, r', hr', hk⟩
          obtain rfl := Option.some.inj (hx.symm.trans hr')
          exact hk
    | update id p =>
        refine ⟨fun hlost => ?_, False.elim⟩
        obtain ⟨r, hr⟩ := contains_iff.1 heffective.mem
        rw [Tree.apply, update_of_find? hr] at hlost
        split at hlost <;> cases hlost
    | move source target place =>
        obtain ⟨old, r, hold, hr⟩ := h.exists_parent_of_move heffective
        obtain ⟨records, -, heq⟩ := move_eq h.toLinked heffective hold hr place
        rw [Tree.apply, heq]
        exact ⟨nofun, False.elim⟩
    | batch cs => exact absurd rfl (hc cs)
  · rw [h.apply_of_not_effective hc heffective]
    exact ⟨nofun, fun htakes => absurd htakes.effective heffective⟩

end Effective

end Tree

/-! ## The edits of a command -/

mutual

/-- What holds of edits of one record, and of a batch if it holds of what is in it, holds of every
command. -/
theorem Command.induction {P : Command → Prop} (edit : ∀ c, (∀ cs, c ≠ .batch cs) → P c)
    (batch : ∀ cs, (∀ c ∈ cs, P c) → P (.batch cs)) : ∀ c, P c
  | .add .. => edit _ nofun
  | .remove _ => edit _ nofun
  | .update .. => edit _ nofun
  | .move .. => edit _ nofun
  | .batch cs => batch cs (Command.induction_all edit batch cs)

theorem Command.induction_all {P : Command → Prop} (edit : ∀ c, (∀ cs, c ≠ .batch cs) → P c)
    (batch : ∀ cs, (∀ c ∈ cs, P c) → P (.batch cs)) : ∀ cs : List Command, ∀ c ∈ cs, P c
  | [] => nofun
  | c :: rest =>
    List.forall_mem_cons.2 ⟨Command.induction edit batch c, Command.induction_all edit batch rest⟩

end

namespace Tree

mutual

/-- The edits of one record that a command makes, each with the tree that it meets. -/
def steps (l : Library) : Command → Tree → List (Tree × Command)
  | .add parent r place, t => [(t, .add parent r place)]
  | .remove x, t => [(t, .remove x)]
  | .update id p, t => [(t, .update id p)]
  | .move source target place, t => [(t, .move source target place)]
  | .batch cs, t => stepsAll l cs t

/-- The edits of commands in order. -/
def stepsAll (l : Library) : List Command → Tree → List (Tree × Command)
  | [], _ => []
  | c :: rest, t => steps l c t ++ stepsAll l rest (t.apply l c).tree

end

section Steps

variable {l : Library}

theorem steps_of_edit {c : Command} (hc : ∀ cs, c ≠ .batch cs) (t : Tree) :
    t.steps l c = [(t, c)] := by
  cases c with
  | batch cs => exact absurd rfl (hc cs)
  | _ => rw [steps]

/-- Each edit is one of a single record, on a tree that is well formed. -/
theorem WellFormed.of_mem_steps (c : Command) {t : Tree} (h : t.WellFormed) {s : Tree × Command}
    (hs : s ∈ t.steps l c) : s.1.WellFormed ∧ ∀ cs, s.2 ≠ .batch cs := by
  induction c using Command.induction generalizing t with
  | edit c hc =>
      rw [steps_of_edit hc, List.mem_singleton] at hs
      subst hs
      exact ⟨h, hc⟩
  | batch cs ih =>
      rw [steps] at hs
      induction cs generalizing t with
      | nil => rw [stepsAll] at hs; cases hs
      | cons c rest ihrest =>
          obtain ⟨ihc, ih⟩ := List.forall_mem_cons.1 ih
          rw [stepsAll] at hs
          rcases List.mem_append.1 hs with hs | hs
          · exact ihc h hs
          · exact ihrest ih (h.apply l c) hs

end Steps

end Tree

end ColumnTree.Outline
