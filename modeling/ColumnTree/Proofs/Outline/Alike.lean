/-
# Trees alike but for aggregations

Two trees have the same outline if they have the same records in the same places, but for what the
records are worked out from.  No edit looks at that before it decides what to do with the lists of
children, so that every command takes trees of one outline to trees of one outline.
-/
import ColumnTree.Proofs.Outline.Preserve

namespace ColumnTree.Outline

open Formula

/-! ## Records without aggregations -/

namespace Record

/-- The record without its aggregation. -/
def bare (r : Record) : Record :=
  { r with aggregation? := none }

variable (r : Record)

@[simp] theorem bare_keeping (keep : RecordId → Bool) :
    (r.keeping keep).bare = r.bare.keeping keep := rfl

@[simp] theorem bare_inserting (place : Option UInt64) (c : RecordId) :
    (r.inserting place c).bare = r.bare.inserting place c := rfl

@[simp] theorem bare_splicing (c : RecordId) (others : List RecordId) :
    (r.splicing c others).bare = r.bare.splicing c others := rfl

@[simp] theorem bare_unlisting (c : RecordId) : (r.unlisting c).bare = r.bare := rfl

@[simp] theorem bare_following (l : Library) (gone : Record) :
    (r.following l gone).bare = r.bare := by
  unfold following
  split <;> rfl

@[simp] theorem bare_completed : r.completed.bare = r.bare := by
  unfold completed
  split <;> rfl

@[simp] theorem children_bare : r.bare.children = r.children := rfl

@[simp] theorem kind_bare : r.bare.kind = r.kind := rfl

@[simp] theorem id_bare : r.bare.id = r.id := rfl

end Record

/-- What a patch makes of a record but for its aggregation does not depend on the aggregation. -/
theorem Patch.bare_apply_allowed {r r' : Record} (h : r.bare = r'.bare) (p : Patch) :
    ((p.allowed r).apply r).bare = ((p.allowed r').apply r').bare := by
  have hid : r.id = r'.id := by rw [← r.id_bare, h, Record.id_bare]
  have hkind : r.kind = r'.kind := by rw [← r.kind_bare, h, Record.kind_bare]
  have hallowed : p.allowed r = p.allowed r' := by
    unfold allowed
    rw [hid, hkind]
  have hbare : ∀ (q : Patch) (s : Record), (q.apply s).bare = (q.apply s.bare).bare := fun _ _ => rfl
  rw [hallowed, hbare, h, ← hbare]

namespace Tree

/-! ## Outlines -/

/-- The records of a tree without their aggregations. -/
def outline (t : Tree) (id : RecordId) : Option Record :=
  (t.find? id).map Record.bare

theorem outline_of_find? {t : Tree} {x : RecordId} {r : Record} (hr : t.find? x = some r) :
    t.outline x = some r.bare := by
  rw [outline, hr, Option.map_some]

theorem CanAdd.outline {t : Tree} {parent : RecordId} {r : Record} (hc : t.CanAdd parent r)
    (place : Option UInt64) (h : t.Linked) (q : RecordId) :
    (t.add parent r place).tree.outline q =
      if q = r.id then some { r.bare with children := t.adoptees parent r.children }
      else
        let kept := (t.outline q).map (Record.keeping fun c =>
          !(t.adoptees parent r.children).contains c)
        if q = parent then kept.map (Record.inserting place r.id) else kept := by
  unfold Tree.outline
  rw [hc.find? place h]
  by_cases hq : q = r.id
  · simp only [if_pos hq, Option.map_some, Option.some.injEq]
    rw [← r.bare_completed]
    rfl
  · simp only [if_neg hq]
    by_cases hp : q = parent
    · simp only [if_pos hp, Option.map_map]
      rfl
    · simp only [if_neg hp, Option.map_map]
      rfl

theorem outline_removed {l : Library} {t : Tree} (h : t.Linked) {x p : RecordId} {gone r : Record}
    (hp : t.parent? x = some p) (hx : t.find? x = some gone) (hr : t.find? p = some r)
    (hid : gone.id = x) (hne : x ≠ rootId) (q : RecordId) :
    (t.remove l x).tree.outline q =
      if q = x then none
      else if q = p then some (r.bare.splicing x gone.children)
      else t.outline q := by
  unfold Tree.outline
  rw [find?_removed h hp hx hr hid hne]
  by_cases hq : q = x
  · simp only [if_pos hq, Option.map_none]
  · by_cases hqp : q = p
    · simp only [if_neg hq, if_pos hqp, Option.map_some, Record.bare_following,
        Record.bare_splicing]
    · simp only [if_neg hq, if_neg hqp]

theorem outline_update {t : Tree} {id : RecordId} {r : Record} (hr : t.find? id = some r) (p : Patch)
    (q : RecordId) : (t.update id p).tree.outline q =
      if q = id then some ((p.allowed r).apply r).bare else t.outline q := by
  unfold Tree.outline
  rw [find?_update hr]
  split <;> rfl

theorem outline_move {t : Tree} (h : t.Linked) {s target old : RecordId} {r : Record}
    (hc : t.CanMove s target) (hold : t.parent? s = some old) (hr : t.find? s = some r)
    (place : Option UInt64) (q : RecordId) :
    (t.move s target place).tree.outline q =
      let kept := (t.outline q).map (Record.keeping (· != s))
      if q = target then kept.map (Record.inserting place s) else kept := by
  unfold Tree.outline
  rw [find?_move h hc hold hr]
  dsimp only
  cases t.find? q with
  | none => split <;> split <;> rfl
  | some rq => split <;> split <;> rfl

/-! ## The same outline -/

/-- The same records in the same places, but for their aggregations. -/
structure SameOutline (t t' : Tree) : Prop where
  outline : ∀ id, t.outline id = t'.outline id
  parents : t.parents = t'.parents

namespace SameOutline

variable {t t' t'' : Tree}

theorem refl (t : Tree) : t.SameOutline t :=
  ⟨fun _ => rfl, rfl⟩

theorem symm (h : t.SameOutline t') : t'.SameOutline t :=
  ⟨fun id => (h.outline id).symm, h.parents.symm⟩

theorem trans (h : t.SameOutline t') (h' : t'.SameOutline t'') : t.SameOutline t'' :=
  ⟨fun id => (h.outline id).trans (h'.outline id), h.parents.trans h'.parents⟩

variable (h : t.SameOutline t')

include h

theorem contains_eq (x : RecordId) : t.contains x = t'.contains x := by
  have := congrArg Option.isSome (h.outline x)
  unfold Tree.outline at this
  rwa [Option.isSome_map, Option.isSome_map] at this

theorem parent?_eq (x : RecordId) : t.parent? x = t'.parent? x := by
  unfold parent?
  rw [h.parents]

theorem exists_find? {x : RecordId} {r : Record} (hr : t.find? x = some r) :
    ∃ r', t'.find? x = some r' ∧ r.bare = r'.bare := by
  have := h.outline x
  rw [outline_of_find? hr, eq_comm, Tree.outline, Option.map_eq_some_iff] at this
  obtain ⟨r', hr', heq⟩ := this
  exact ⟨r', hr', heq.symm⟩

theorem find?_eq_none {x : RecordId} (hr : t.find? x = none) : t'.find? x = none := by
  rw [← contains_eq_false_iff, ← h.contains_eq, contains_eq_false_iff, hr]

theorem isWithin_eq (x a : RecordId) : t.isWithin x a = t'.isWithin x a := by
  unfold isWithin
  rw [h.parents]

theorem adoptees_eq (parent : RecordId) (listed : List RecordId) :
    t.adoptees parent listed = t'.adoptees parent listed := by
  have : t.adoptable parent = t'.adoptable parent := by
    funext c
    simp only [adoptable, h.contains_eq, h.isWithin_eq]
  rw [adoptees, adoptees, this]

/-! ## Commands -/

theorem canAdd {parent : RecordId} {r : Record} (hc : t.CanAdd parent r) : t'.CanAdd parent r :=
  ⟨h.contains_eq parent ▸ hc.parent_mem, hc.id_ne, hc.kind_ne, h.contains_eq r.id ▸ hc.fresh⟩

theorem add (hl : t.Linked) (hl' : t'.Linked) (parent : RecordId) (r : Record)
    (place : Option UInt64) : (t.add parent r place).tree.SameOutline (t'.add parent r place).tree := by
  by_cases hc : t.CanAdd parent r
  · have hc' := h.canAdd hc
    refine ⟨fun id => ?_, IdMap.ext_find? fun x => ?_⟩
    · rw [hc.outline place hl, hc'.outline place hl', h.adoptees_eq, h.outline]
    · show (t.add parent r place).tree.parent? x = (t'.add parent r place).tree.parent? x
      rw [hc.parent? place hl, hc'.parent? place hl', h.adoptees_eq, h.parent?_eq]
  · rw [add_of_not hc, add_of_not fun hc' => hc (h.symm.canAdd hc')]
    exact h

theorem remove (hw : t.WellFormed) (hw' : t'.WellFormed) (l : Library) (x : RecordId) :
    (t.remove l x).tree.SameOutline (t'.remove l x).tree := by
  by_cases hc : t.CanRemove x
  · obtain ⟨p, gone, r, hp, hx, hr, hid⟩ := hw.exists_parent_record hc
    obtain ⟨gone', hx', hgone⟩ := h.exists_find? hx
    obtain ⟨r', hr', hbare⟩ := h.exists_find? hr
    have hp' : t'.parent? x = some p := h.parent?_eq x ▸ hp
    have hid' : gone'.id = x := hw'.named hx'
    have hchildren : gone.children = gone'.children := by
      rw [← gone.children_bare, hgone, Record.children_bare]
    refine ⟨fun id => ?_, IdMap.ext_find? fun y => ?_⟩
    · rw [outline_removed hw.toLinked hp hx hr hid hc.ne_root,
        outline_removed hw'.toLinked hp' hx' hr' hid' hc.ne_root, h.outline, hbare, hchildren]
    · show (t.remove l x).tree.parent? y = (t'.remove l x).tree.parent? y
      rw [parent?_removed hw.toLinked hp hx hr hid hc.ne_root,
        parent?_removed hw'.toLinked hp' hx' hr' hid' hc.ne_root, h.parent?_eq,
        children_of_find? hx, children_of_find? hx', hchildren]
  · have hc' : ¬ t'.CanRemove x := fun hc' => hc ⟨(h.contains_eq x).trans hc'.mem, hc'.ne_root⟩
    rw [remove_of_not hc, remove_of_not hc']
    exact h

theorem update (id : RecordId) (p : Patch) :
    (t.update id p).tree.SameOutline (t'.update id p).tree := by
  refine ⟨fun q => ?_, by rw [parents_update, parents_update, h.parents]⟩
  cases hr : t.find? id with
  | none =>
      rw [update_of_find?_none hr, update_of_find?_none (h.find?_eq_none hr)]
      exact h.outline q
  | some r =>
      obtain ⟨r', hr', hbare⟩ := h.exists_find? hr
      rw [outline_update hr, outline_update hr', Patch.bare_apply_allowed hbare, h.outline]

theorem canMove (hl : t.Linked) (hl' : t'.Linked) {s target : RecordId} (hc : t.CanMove s target) :
    t'.CanMove s target := by
  refine ⟨h.contains_eq s ▸ hc.mem, hc.ne_root, h.contains_eq target ▸ hc.target_mem, fun hs => ?_⟩
  rw [← hl'.isWithin_iff, ← h.isWithin_eq, hl.isWithin_iff] at hs
  exact hc.outside hs

/-- A move makes the same of a record that both trees have. -/
theorem find?_move_eq (hl : t.Linked) (hl' : t'.Linked) {s target : RecordId}
    (hc : t.CanMove s target) (place : Option UInt64) {q : RecordId} (hq : t.find? q = t'.find? q) :
    (t.move s target place).tree.find? q = (t'.move s target place).tree.find? q := by
  obtain ⟨old, r, hold, hr⟩ := hl.exists_parent_of_move hc
  obtain ⟨r', hr', -⟩ := h.exists_find? hr
  rw [find?_move hl hc hold hr, find?_move hl' (h.canMove hl hl' hc) (h.parent?_eq s ▸ hold) hr', hq]

theorem move (hl : t.Linked) (hl' : t'.Linked) (s target : RecordId) (place : Option UInt64) :
    (t.move s target place).tree.SameOutline (t'.move s target place).tree := by
  by_cases hc : t.CanMove s target
  · obtain ⟨old, r, hold, hr⟩ := hl.exists_parent_of_move hc
    obtain ⟨r', hr', -⟩ := h.exists_find? hr
    have hc' := h.canMove hl hl' hc
    have hold' : t'.parent? s = some old := h.parent?_eq s ▸ hold
    refine ⟨fun id => ?_, IdMap.ext_find? fun x => ?_⟩
    · rw [outline_move hl hc hold hr, outline_move hl' hc' hold' hr', h.outline]
    · show (t.move s target place).tree.parent? x = (t'.move s target place).tree.parent? x
      rw [parent?_move hl hc hold hr, parent?_move hl' hc' hold' hr', h.parent?_eq]
  · rw [hl.move_of_not hc, hl'.move_of_not fun hc' => hc (h.symm.canMove hl' hl hc')]
    exact h

end SameOutline

mutual

/-- A command takes trees of one outline to trees of one outline. -/
theorem SameOutline.apply (l : Library) : ∀ (c : Command) {t t' : Tree}, t.SameOutline t' →
    t.WellFormed → t'.WellFormed → (t.apply l c).tree.SameOutline (t'.apply l c).tree
  | .add parent r place, _, _, h, hw, hw' => by
      rw [Tree.apply, Tree.apply]
      exact h.add hw.toLinked hw'.toLinked parent r place
  | .remove x, _, _, h, hw, hw' => by
      rw [Tree.apply, Tree.apply]
      exact h.remove hw hw' l x
  | .update id p, _, _, h, _, _ => by
      rw [Tree.apply, Tree.apply]
      exact h.update id p
  | .move source target place, _, _, h, hw, hw' => by
      rw [Tree.apply, Tree.apply]
      exact h.move hw.toLinked hw'.toLinked source target place
  | .batch cs, _, _, h, hw, hw' => by
      rw [Tree.apply, Tree.apply]
      exact SameOutline.applyAll l cs h hw hw'

theorem SameOutline.applyAll (l : Library) : ∀ (cs : List Command) {t t' : Tree},
    t.SameOutline t' → t.WellFormed → t'.WellFormed →
      (Tree.applyAll l cs t).tree.SameOutline (Tree.applyAll l cs t').tree
  | [], _, _, h, _, _ => by
      rw [Tree.applyAll, Tree.applyAll]
      exact h
  | c :: rest, _, _, h, hw, hw' => by
      rw [Tree.applyAll, Tree.applyAll]
      exact SameOutline.applyAll l rest (SameOutline.apply l c h hw hw') (hw.apply l c)
        (hw'.apply l c)

end

end Tree

end ColumnTree.Outline
