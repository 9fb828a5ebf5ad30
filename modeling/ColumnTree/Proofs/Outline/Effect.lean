/-
# What edits do

Each edit either does nothing or has an effect that is read off the tree before it.  For each there
is the condition under which it does something (`CanAdd`, `CanRemove`, `CanMove`), and there are two
equations, one for the records and one for the index of parents, and one for the command that takes
the edit back.  What is proved of edits later on rests on these equations.
-/
import ColumnTree.Proofs.Outline.Adoption

namespace ColumnTree.Outline

open Formula

namespace Tree

/-! ## Adding -/

/-- May a record be added below another? -/
structure CanAdd (t : Tree) (parent : RecordId) (r : Record) : Prop where
  parent_mem : t.contains parent = true
  id_ne : r.id ≠ rootId
  kind_ne : r.kind ≠ .root
  fresh : t.contains r.id = false

theorem add_of_not {t : Tree} {parent : RecordId} {r : Record} (hc : ¬ t.CanAdd parent r)
    (place : Option UInt64) : t.add parent r place = .idle t := by
  have hguard : (!t.contains parent || r.id == rootId || r.kind == .root || t.contains r.id) := by
    by_contra hno
    simp only [Bool.or_eq_true, Bool.not_eq_true', beq_iff_eq, not_or] at hno
    obtain ⟨⟨⟨h₁, h₂⟩, h₃⟩, h₄⟩ := hno
    exact hc ⟨by simpa using h₁, h₂, h₃, by simpa using h₄⟩
  rw [add, if_pos hguard]

section Add

variable {t : Tree} {parent : RecordId} {r : Record} (hc : t.CanAdd parent r)
  (place : Option UInt64)

include hc

theorem CanAdd.add_eq :
    t.add parent r place =
      .done
        { (adopt parent r.id r.children [] t).1.attach parent r.id place with
          records := ((adopt parent r.id r.children [] t).1.attach parent r.id place).records.insert
            r.id { r.completed with children := (adopt parent r.id r.children [] t).2 } }
        (.remove r.id) := by
  have hguard : ¬ (!t.contains parent || r.id == rootId || r.kind == .root || t.contains r.id) := by
    simp [hc.parent_mem, hc.id_ne, hc.kind_ne, hc.fresh]
  rw [add, if_neg hguard]

theorem CanAdd.inverse? : (t.add parent r place).inverse? = some (.remove r.id) := by
  rw [hc.add_eq]
  rfl

theorem CanAdd.ne : parent ≠ r.id := by
  rintro heq
  have := hc.fresh
  rw [← heq, hc.parent_mem] at this
  cases this

variable (h : t.Linked)

include h

variable (parent r) in
omit hc in
theorem Linked.adopt_adoptees :
    t.Gave r.id (t.adoptees parent r.children) (adopt parent r.id r.children [] t).1 ∧
      (adopt parent r.id r.children [] t).2 = t.adoptees parent r.children := by
  obtain ⟨hg, heq⟩ := Tree.adopt_spec h parent r.children (.none t r.id) (by simp)
  have heq : (adopt parent r.id r.children [] t).2 = t.adoptees parent r.children := by
    simpa [adoptees] using heq
  exact ⟨heq ▸ hg, heq⟩

theorem CanAdd.find? (q : RecordId) :
    (t.add parent r place).tree.find? q =
      if q = r.id then some { r.completed with children := t.adoptees parent r.children }
      else
        let kept := (t.find? q).map (Record.keeping fun c =>
          !(t.adoptees parent r.children).contains c)
        if q = parent then kept.map (Record.inserting place r.id) else kept := by
  obtain ⟨hg, heq⟩ := h.adopt_adoptees parent r
  rw [hc.add_eq]
  show (IdMap.insert _ _ _).find? q = _
  rw [IdMap.find?_insert, heq]
  split
  · rfl
  · show ((adopt parent r.id r.children [] t).1.records.modify parent _).find? q = _
    rw [IdMap.find?_modify, show IdMap.find? _ q = _ from hg.find? q]
    rfl

theorem CanAdd.parent? (x : RecordId) :
    (t.add parent r place).tree.parent? x =
      if x = r.id then some parent
      else if x ∈ t.adoptees parent r.children then some r.id
      else t.parent? x := by
  obtain ⟨hg, -⟩ := h.adopt_adoptees parent r
  rw [hc.add_eq]
  show (IdMap.insert _ _ _).find? x = _
  rw [IdMap.find?_insert, show IdMap.find? _ x = _ from hg.parent? x]

end Add

/-! ## Removing -/

/-- May a record be removed? -/
structure CanRemove (t : Tree) (x : RecordId) : Prop where
  mem : t.contains x = true
  ne_root : x ≠ rootId

theorem remove_of_not {l : Library} {t : Tree} {x : RecordId} (hc : ¬ t.CanRemove x) :
    t.remove l x = .idle t := by
  unfold remove
  split
  · next p gone hp hx =>
    have hroot : x = rootId := by
      by_contra hne
      exact hc ⟨contains_iff.2 ⟨gone, hx⟩, hne⟩
    rw [if_pos hroot]
  · rfl

end Tree

/-- A record after one of its children has been removed: its formula has followed. -/
def Record.following (r : Record) (l : Library) (gone : Record) : Record :=
  match Tree.followRemoval l gone r with
  | none => r
  | some (_, after, _) => { r with aggregation? := some after }

/-- A record in whose list others stand in the place of a child. -/
def Record.splicing (id : RecordId) (others : List RecordId) (r : Record) : Record :=
  { r with children := splice id others r.children }

@[simp] theorem Record.children_following (r : Record) (l : Library) (gone : Record) :
    (r.following l gone).children = r.children := by
  unfold following
  split <;> rfl

namespace Tree

theorem followRemoval_splicing (l : Library) (gone r : Record) (id : RecordId)
    (others : List RecordId) :
    followRemoval l gone (r.splicing id others) = followRemoval l gone r := rfl

/-- The command that takes a removal back. -/
def restoring (l : Library) (parent : RecordId) (gone r : Record) : Command :=
  let back := Command.add parent gone (some (placeOf gone.id r.children))
  match followRemoval l gone r with
  | none => back
  | some (before, after, _) =>
    if after == before then back
    else .batch [back, .update parent (.ofAggregation (some before))]

theorem find?_reparent (m : IdMap RecordId) (p : RecordId) (cs : List RecordId) (x : RecordId) :
    (reparent m p cs).find? x = if x ∈ cs then some p else m.find? x := by
  induction cs generalizing m with
  | nil => simp [reparent]
  | cons c rest ih =>
      show (reparent (m.insert c p) p rest).find? x = _
      rw [ih, IdMap.find?_insert]
      by_cases hx : x ∈ rest
      · simp [hx]
      · by_cases hc : x = c <;> simp [hx, hc]

section Remove

variable {l : Library} {t : Tree} {x p : RecordId} {gone r : Record}
  (hp : t.parent? x = some p) (hx : t.find? x = some gone) (hr : t.find? p = some r)
  (hid : gone.id = x) (hne : x ≠ rootId) (hpx : p ≠ x)

include hp hx hr hid hne hpx

theorem remove_eq :
    ∃ records, (∀ q, records.find? q =
        if q = x then none
        else if q = p then some ((r.splicing x gone.children).following l gone)
        else t.find? q) ∧
      (t.remove l x).tree = ⟨records, reparent (t.parents.erase x) p gone.children⟩ ∧
      (t.remove l x).inverse? = some (restoring l p gone r) ∧
      (t.remove l x).warnings = (followRemoval l gone r).elim [] (·.2.2) := by
  -- The records after the removal and before the formula follows.
  have hmid : ∀ q, ((t.records.erase x).modify p fun r =>
      { r with children := splice x gone.children r.children }).find? q =
        if q = x then none
        else if q = p then some (r.splicing x gone.children)
        else t.find? q := by
    intro q
    rw [IdMap.find?_modify, IdMap.find?_erase]
    by_cases hq : q = p
    · subst hq
      rw [if_pos rfl, if_neg hpx, if_neg hpx, if_pos rfl, show t.records.find? q = some r from hr]
      rfl
    · simp only [if_neg hq]
      rfl
  have hpar := hmid p
  rw [if_neg hpx, if_pos rfl] at hpar
  have hplace : placeOf x (t.children p) = placeOf gone.id r.children := by
    rw [children_of_find? hr, hid]
  unfold remove
  simp only [hp, hx, if_neg hne, hpar, Option.bind_some, followRemoval_splicing, hplace]
  cases hf : followRemoval l gone r with
  | none =>
      refine ⟨_, fun q => (hmid q).trans ?_, rfl, by simp [restoring, hf], rfl⟩
      simp only [Record.following, followRemoval_splicing, hf]
  | some f =>
      obtain ⟨before, after, warnings⟩ := f
      refine ⟨_, fun q => ?_, rfl, by simp [restoring, hf], rfl⟩
      rw [IdMap.find?_modify, hmid]
      by_cases hq : q = p
      · subst hq
        simp [hpx, Record.following, followRemoval_splicing, hf]
      · simp only [if_neg hq]

theorem find?_remove (q : RecordId) :
    (t.remove l x).tree.find? q =
      if q = x then none
      else if q = p then some ((r.splicing x gone.children).following l gone)
      else t.find? q := by
  obtain ⟨records, hfind, htree, -⟩ := remove_eq (l := l) hp hx hr hid hne hpx
  rw [htree]
  exact hfind q

theorem parent?_remove (y : RecordId) :
    (t.remove l x).tree.parent? y =
      if y ∈ gone.children then some p else if y = x then none else t.parent? y := by
  obtain ⟨records, -, htree, -⟩ := remove_eq (l := l) hp hx hr hid hne hpx
  rw [htree]
  show (reparent _ _ _).find? y = _
  rw [find?_reparent, IdMap.find?_erase]
  rfl

theorem inverse?_remove : (t.remove l x).inverse? = some (restoring l p gone r) := by
  obtain ⟨records, -, -, hinv, -⟩ := remove_eq (l := l) hp hx hr hid hne hpx
  exact hinv

/-- The warnings are those about the aggregation that follows. -/
theorem warnings_remove :
    (t.remove l x).warnings = (followRemoval l gone r).elim [] (·.2.2) := by
  obtain ⟨records, -, -, -, hwarnings⟩ := remove_eq (l := l) hp hx hr hid hne hpx
  exact hwarnings

end Remove

/-! ## Updating -/

theorem update_of_find? {t : Tree} {id : RecordId} {r : Record} {p : Patch}
    (hr : t.find? id = some r) :
    t.update id p =
      if (p.allowed r).isEmpty then .idle t
      else .done { t with records := t.records.modify id (p.allowed r).apply }
        (.update id ((p.allowed r).capture r)) := by
  simp only [update, hr]

theorem update_of_find?_none {t : Tree} {id : RecordId} {p : Patch} (hr : t.find? id = none) :
    t.update id p = .idle t := by
  simp only [update, hr]

/-! ## Moving -/

/-- May a record be moved under another? -/
structure CanMove (t : Tree) (s target : RecordId) : Prop where
  mem : t.contains s = true
  ne_root : s ≠ rootId
  target_mem : t.contains target = true
  outside : ¬ t.Reaches s target

end Tree

/-- A record that does not take part in itself. -/
def Record.unlisting (id : RecordId) (r : Record) : Record :=
  { r with aggregation? := r.aggregation?.map (·.without id) }

theorem Aggregation.lists_iff {a : Aggregation} {c : RecordId} :
    a.lists c = true ↔ ∃ d ∈ a.columns, d.id = c := by
  simp [lists]

theorem Aggregation.without_eq_self {a : Aggregation} {id : RecordId} (h : a.lists id = false) :
    a.without id = a := by
  have hf : a.columns.filter (fun c => c.id != id) = a.columns := by
    refine List.filter_eq_self.2 fun c hc => ?_
    have := List.any_eq_false.1 h c hc
    simpa using this
  simp [without, hf]

theorem Aggregation.lists_without (a : Aggregation) (id : RecordId) :
    (a.without id).lists id = false := by
  simp [lists, without]

namespace Tree

theorem Linked.move_of_not {t : Tree} (h : t.Linked) {s target : RecordId}
    (hc : ¬ t.CanMove s target) (place : Option UInt64) : t.move s target place = .idle t := by
  unfold move
  split
  · rfl
  · next old hold =>
    have hguard : (s == rootId || !t.contains target || t.isWithin target s) = true := by
      by_contra hno
      simp only [Bool.or_eq_true, beq_iff_eq, Bool.not_eq_true', not_or] at hno
      obtain ⟨⟨h₁, h₂⟩, h₃⟩ := hno
      refine hc ⟨h.listed (h.parent_iff.1 hold), h₁, by simpa using h₂, ?_⟩
      rwa [h.isWithin_iff] at h₃
    rw [if_pos hguard]

section Move

variable {t : Tree} (h : t.Linked) {s target old : RecordId} {r : Record}
  (hc : t.CanMove s target) (hold : t.parent? s = some old) (hr : t.find? s = some r)
  (place : Option UInt64)

/-- The command that takes a move back. -/
def movingBack (t : Tree) (s old : RecordId) (r : Record) : Command :=
  let back := Command.move s old (some (placeOf s (t.children old)))
  match r.aggregation? with
  | some a => if a.lists s then .batch [.update s (.ofAggregation (some a)), back] else back
  | none => back

include h in
theorem find?_moved (q : RecordId) :
    ((t.detach s).attach target s place).find? q =
      let kept := (t.find? q).map (Record.keeping (· != s))
      if q = target then kept.map (Record.inserting place s) else kept := by
  show ((t.detach s).records.modify target _).find? q = _
  rw [IdMap.find?_modify, show IdMap.find? _ q = _ from
    find?_detach h.nodup (fun q => h.parent_iff.2) q]
  rfl

include h hc hold hr

theorem move_eq :
    ∃ records, (∀ q, records.find? q =
        let moved := ((t.detach s).attach target s place).find? q
        if q = s then moved.map (Record.unlisting s) else moved) ∧
      t.move s target place =
        .done ⟨records, ((t.detach s).attach target s place).parents⟩ (movingBack t s old r) := by
  have hguard : ¬ (s == rootId || !t.contains target || t.isWithin target s) = true := by
    simp [hc.ne_root, hc.target_mem, h.isWithin_eq_false_iff, hc.outside]
  have hne : s ≠ target := fun heq => hc.outside (heq ▸ .refl)
  have hs : ((t.detach s).attach target s place).find? s = some (r.keeping (· != s)) := by
    simp [find?_moved h, hne, hr]
  unfold move
  simp only [hold, if_neg hguard, hs, Option.bind_some]
  cases ha : (r.keeping (· != s)).aggregation? with
  | none =>
      have hra : r.aggregation? = none := ha
      refine ⟨((t.detach s).attach target s place).records, fun q => ?_, by
        simp only [movingBack, hra]⟩
      by_cases hq : q = s
      · subst hq
        rw [show IdMap.find? _ q = _ from hs]
        simp [hs, Record.unlisting, Record.keeping, hra]
      · simp only [if_neg hq]
        rfl
  | some a =>
      have hra : r.aggregation? = some a := ha
      cases hl : a.lists s with
      | true =>
          refine ⟨_, fun q => ?_, by simp only [movingBack, hra, hl, if_true]; rfl⟩
          rw [IdMap.find?_modify]
          by_cases hq : q = s
          · subst hq
            rw [show IdMap.find? _ q = _ from hs]
            simp [hs, Record.unlisting, Record.keeping, hra]
          · simp only [if_neg hq]
            rfl
      | false =>
          refine ⟨((t.detach s).attach target s place).records, fun q => ?_, by
            simp only [movingBack, hra, hl, Bool.false_eq_true, if_false]⟩
          by_cases hq : q = s
          · subst hq
            rw [show IdMap.find? _ q = _ from hs]
            simp [hs, Record.unlisting, Record.keeping, hra, Aggregation.without_eq_self hl]
          · simp only [if_neg hq]
            rfl

theorem find?_move (q : RecordId) :
    (t.move s target place).tree.find? q =
      let kept := (t.find? q).map (Record.keeping (· != s))
      let moved := if q = target then kept.map (Record.inserting place s) else kept
      if q = s then moved.map (Record.unlisting s) else moved := by
  obtain ⟨records, hfind, heq⟩ := move_eq h hc hold hr place
  rw [heq]
  refine (hfind q).trans ?_
  rw [find?_moved h]

theorem parent?_move (x : RecordId) :
    (t.move s target place).tree.parent? x = if x = s then some target else t.parent? x := by
  obtain ⟨records, -, heq⟩ := move_eq h hc hold hr place
  rw [heq]
  show ((t.detach s).parents.insert s target).find? x = _
  rw [IdMap.find?_insert]
  split
  · rfl
  · next hx =>
    show (t.detach s).parent? x = _
    rw [parent?_detach, if_neg hx]

theorem inverse?_move : (t.move s target place).inverse? = some (movingBack t s old r) := by
  obtain ⟨records, -, heq⟩ := move_eq h hc hold hr place
  rw [heq]
  rfl

end Move

end Tree

end ColumnTree.Outline
