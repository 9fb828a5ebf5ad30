/-
# Edits keep trees well formed

For each edit: who is among the children of a record afterwards, and from it that the tree is still
linked.  The last part takes this from single edits to commands, whose batches may be nested.
-/
import ColumnTree.Proofs.Outline.Effect

namespace ColumnTree.Outline

open Formula

/-! ## What edits of a record leave alone -/

namespace Record

variable (r : Record)

@[simp] theorem id_keeping (keep : RecordId → Bool) : (r.keeping keep).id = r.id := rfl

@[simp] theorem kind_keeping (keep : RecordId → Bool) : (r.keeping keep).kind = r.kind := rfl

@[simp] theorem id_inserting (place : Option UInt64) (c : RecordId) :
    (r.inserting place c).id = r.id := rfl

@[simp] theorem kind_inserting (place : Option UInt64) (c : RecordId) :
    (r.inserting place c).kind = r.kind := rfl

@[simp] theorem id_unlisting (c : RecordId) : (r.unlisting c).id = r.id := rfl

@[simp] theorem kind_unlisting (c : RecordId) : (r.unlisting c).kind = r.kind := rfl

@[simp] theorem children_unlisting (c : RecordId) : (r.unlisting c).children = r.children := rfl

@[simp] theorem id_splicing (c : RecordId) (others : List RecordId) :
    (r.splicing c others).id = r.id := rfl

@[simp] theorem kind_splicing (c : RecordId) (others : List RecordId) :
    (r.splicing c others).kind = r.kind := rfl

@[simp] theorem id_following (l : Library) (gone : Record) : (r.following l gone).id = r.id := by
  unfold following
  split <;> rfl

@[simp] theorem kind_following (l : Library) (gone : Record) :
    (r.following l gone).kind = r.kind := by
  unfold following
  split <;> rfl

@[simp] theorem id_completed : r.completed.id = r.id := by
  unfold completed
  split <;> rfl

@[simp] theorem kind_completed : r.completed.kind = r.kind := by
  unfold completed
  split <;> rfl

end Record

theorem mem_splice {x c : RecordId} {others l : List RecordId} (hl : l.Nodup) (hx : x ∈ l) :
    c ∈ splice x others l ↔ (c ∈ l ∧ c ≠ x) ∨ c ∈ others := by
  have heq := takeWhile_append_dropWhile_of_mem hx
  generalize l.takeWhile (· != x) = a at heq
  generalize (l.dropWhile (· != x)).drop 1 = b at heq
  subst heq
  obtain ⟨-, hxb, hab⟩ := List.nodup_append.1 hl
  have hxa : x ∉ a := fun ha => hab x ha x (by simp) rfl
  have hxb : x ∉ b := (List.nodup_cons.1 hxb).1
  rw [splice_eq hxa]
  simp only [List.mem_append, List.mem_cons]
  constructor
  · rintro ((hc | hc) | hc)
    · exact .inl ⟨.inl hc, fun heq => hxa (heq ▸ hc)⟩
    · exact .inr hc
    · exact .inl ⟨.inr (.inr hc), fun heq => hxb (heq ▸ hc)⟩
  · rintro (⟨hc | hc | hc, hne⟩ | hc)
    · exact .inl (.inl hc)
    · exact absurd hc hne
    · exact .inr hc
    · exact .inl (.inr hc)

theorem nodup_splice {x : RecordId} {others l : List RecordId} (hl : l.Nodup) (hx : x ∈ l)
    (ho : others.Nodup) (hd : ∀ c ∈ others, c ∉ l) : (splice x others l).Nodup := by
  have heq := takeWhile_append_dropWhile_of_mem hx
  generalize l.takeWhile (· != x) = a at heq
  generalize (l.dropWhile (· != x)).drop 1 = b at heq
  subst heq
  obtain ⟨ha, hxb, hab⟩ := List.nodup_append.1 hl
  have hxa : x ∉ a := fun hm => hab x hm x (by simp) rfl
  rw [splice_eq hxa, List.append_assoc, List.nodup_append, List.nodup_append]
  refine ⟨ha, ⟨ho, (List.nodup_cons.1 hxb).2, ?_⟩, ?_⟩
  · rintro c hc d hdb rfl
    exact hd c hc (by simp [hdb])
  · rintro c hc d hdm rfl
    rcases List.mem_append.1 hdm with hm | hm
    · exact hd c hm (by simp [hc])
    · exact hab c hc c (by simp [hm]) rfl

namespace Tree

theorem mem_adoptees {t : Tree} (h : t.Linked) {parent c : RecordId} {listed : List RecordId} :
    c ∈ t.adoptees parent listed ↔
      c ∈ listed ∧ c ≠ rootId ∧ t.contains c = true ∧ ¬ t.Reaches c parent := by
  rw [adoptees, List.mem_eraseDups, List.mem_filter, h.adoptable_iff]

/-! ## Adding -/

section Add

variable {t : Tree} {parent : RecordId} {r : Record} (hc : t.CanAdd parent r)
  (place : Option UInt64) (h : t.Linked)

include hc h

theorem CanAdd.children (q : RecordId) :
    (t.add parent r place).tree.children q =
      if q = r.id then t.adoptees parent r.children
      else
        let kept := (t.children q).filter fun c => !(t.adoptees parent r.children).contains c
        if q = parent then insertAt place r.id kept else kept := by
  simp only [Tree.children, hc.find? place h]
  by_cases hq : q = r.id
  · simp [hq]
  · obtain ⟨rp, hrp⟩ := contains_iff.1 hc.parent_mem
    by_cases hqp : q = parent
    · subst hqp
      simp [hq, hrp, Record.inserting, Record.keeping]
    · cases hr : t.find? q with
      | none => simp [hq, hqp]
      | some rq => simp [hq, hqp, Record.keeping]

/-- The new record is nowhere in the lists of children before. -/
theorem CanAdd.not_mem (q : RecordId) : r.id ∉ t.children q := fun hm => by
  have := h.listed hm
  rw [hc.fresh] at this
  cases this

theorem CanAdd.not_mem_adoptees : r.id ∉ t.adoptees parent r.children := fun hm => by
  have := ((mem_adoptees h).1 hm).2.2.1
  rw [hc.fresh] at this
  cases this

theorem CanAdd.mem_children (c q : RecordId) :
    c ∈ (t.add parent r place).tree.children q ↔
      (q = r.id ∧ c ∈ t.adoptees parent r.children) ∨ (q = parent ∧ c = r.id) ∨
        (c ∈ t.children q ∧ c ∉ t.adoptees parent r.children) := by
  have hempty : ∀ c, c ∉ t.children r.id := fun c hm => by
    have := contains_of_mem_children hm
    rw [hc.fresh] at this
    cases this
  rw [hc.children place h]
  by_cases hq : q = r.id
  · have hp : q ≠ parent := fun heq => hc.ne (heq.symm.trans hq)
    subst hq
    simp [hp, hempty]
  · by_cases hp : q = parent
    · subst hp
      simp [hq, mem_insertAt]
    · simp [hq, hp]

theorem CanAdd.parent?_iff (c q : RecordId) :
    (t.add parent r place).tree.parent? c = some q ↔
      c ∈ (t.add parent r place).tree.children q := by
  rw [hc.parent? place h, hc.mem_children place h]
  by_cases hcr : c = r.id
  · subst hcr
    simp [hc.not_mem h, hc.not_mem_adoptees h, eq_comm]
  · by_cases hca : c ∈ t.adoptees parent r.children
    · simp [hcr, hca, eq_comm]
    · simp [hcr, hca, h.parent_iff]

theorem CanAdd.contains (x : RecordId) :
    (t.add parent r place).tree.contains x = true ↔ x = r.id ∨ t.contains x = true := by
  show ((t.add parent r place).tree.find? x).isSome = true ↔ _ ∨ (t.find? x).isSome = true
  rw [hc.find? place h]
  by_cases hx : x = r.id
  · simp [hx]
  · rw [if_neg hx]
    by_cases hxp : x = parent
    · simp only [if_pos hxp, Option.isSome_map, hx, false_or]
    · simp only [if_neg hxp, Option.isSome_map, hx, false_or]

theorem CanAdd.linked : (t.add parent r place).tree.Linked := by
  have hiff := hc.parent?_iff place h
  have hlists : ∀ q c, t.Lists q c → ¬ c ∈ t.adoptees parent r.children →
      (t.add parent r place).tree.Lists q c := by
    intro q c hl hca
    have hcr : c ≠ r.id := fun heq => hc.not_mem h q (heq ▸ hl)
    rw [Lists, ← hiff, hc.parent? place h, if_neg hcr, if_neg hca]
    exact h.parent_iff.2 hl
  have hfree : ∀ m ∈ t.adoptees parent r.children, ¬ t.Reaches m parent := fun m hm =>
    ((mem_adoptees h).1 hm).2.2.2
  have hnew : (t.add parent r place).tree.Lists parent r.id := by
    rw [Lists, ← hiff, hc.parent? place h, if_pos rfl]
  -- An adopted child is reached from the parent over the new record.
  have hlink : ∀ m ∈ t.adoptees parent r.children,
      (t.add parent r place).tree.Reaches parent m := by
    intro m hm
    refine .tail (.tail .refl hnew) ?_
    have hmr : m ≠ r.id := fun heq => hc.not_mem_adoptees h (heq ▸ hm)
    rw [Lists, ← hiff, hc.parent? place h, if_neg hmr, if_pos hm]
  have hroot := h.reached hc.parent_mem
  refine ⟨?_, ?_, ?_, ?_, fun {c p} => hiff c p, ?_⟩
  · exact (hc.contains place h rootId).2 (.inr h.root_mem)
  · intro p hp
    have hra : rootId ∉ t.adoptees parent r.children := fun hm =>
      ((mem_adoptees h).1 hm).2.1 rfl
    rw [← hiff, hc.parent? place h, if_neg (Ne.symm hc.id_ne), if_neg hra, h.parent?_root] at hp
    cases hp
  · intro p c hp
    rw [hc.contains place h]
    rw [← hiff, hc.parent? place h] at hp
    split at hp
    · next heq => exact .inl heq
    · split at hp
      · next hm => exact .inr ((mem_adoptees h).1 hm).2.2.1
      · exact .inr (h.listed (h.parent_iff.1 hp))
  · intro p
    rw [hc.children place h]
    split
    · exact nodup_eraseDups _
    · have hkept := (h.nodup p).filter fun c => !(t.adoptees parent r.children).contains c
      split
      · exact nodup_insertAt hkept fun hm => hc.not_mem h p (List.mem_filter.1 hm).1
      · exact hkept
  · intro x hx
    rcases (hc.contains place h x).1 hx with rfl | hx
    · exact .tail (reaches_of_avoids hlists hroot hfree) hnew
    · exact reaches_of_rewired _ parent hlists hroot hfree hlink (h.reached hx)

end Add

theorem WellFormed.add {t : Tree} (h : t.WellFormed) (parent : RecordId) (r : Record)
    (place : Option UInt64) : (t.add parent r place).tree.WellFormed := by
  by_cases hc : t.CanAdd parent r
  · refine h.of_alike (hc.linked place h.toLinked) fun {q rq} hrq => ?_
    rw [hc.find? place h.toLinked] at hrq
    by_cases hq : q = r.id
    · rw [if_pos hq] at hrq
      obtain rfl := Option.some.inj hrq
      exact .inl ⟨by simp [hq], hq ▸ hc.id_ne, by simpa using hc.kind_ne⟩
    · right
      rw [if_neg hq] at hrq
      cases hr₀ : t.find? q with
      | none => split at hrq <;> simp [hr₀] at hrq
      | some r₀ =>
          refine ⟨r₀, rfl, ?_⟩
          split at hrq <;> simp only [hr₀, Option.map_some, Option.some.injEq] at hrq <;>
            subst hrq <;> exact ⟨rfl, Iff.rfl⟩
  · rw [add_of_not hc]
    exact h

/-! ## Removing -/

section Remove

variable {l : Library} {t : Tree} (h : t.Linked) {x p : RecordId} {gone r : Record}
  (hp : t.parent? x = some p) (hx : t.find? x = some gone) (hr : t.find? p = some r)
  (hid : gone.id = x) (hne : x ≠ rootId)

include h hp hx hr hid hne

theorem find?_removed (q : RecordId) :
    (t.remove l x).tree.find? q =
      if q = x then none
      else if q = p then some ((r.splicing x gone.children).following l gone)
      else t.find? q :=
  find?_remove hp hx hr hid hne (h.ne_of_mem (h.parent_iff.1 hp)).symm q

theorem parent?_removed (y : RecordId) :
    (t.remove l x).tree.parent? y =
      if y ∈ t.children x then some p else if y = x then none else t.parent? y := by
  rw [children_of_find? hx]
  exact parent?_remove hp hx hr hid hne (h.ne_of_mem (h.parent_iff.1 hp)).symm y

theorem children_removed (q : RecordId) :
    (t.remove l x).tree.children q =
      if q = x then []
      else if q = p then splice x (t.children x) (t.children p)
      else t.children q := by
  have hfind := find?_removed (l := l) h hp hx hr hid hne q
  rw [children_of_find? hx, children_of_find? hr]
  split
  · next hq => rw [if_pos hq] at hfind; exact children_of_find?_none hfind
  · next hq =>
    rw [if_neg hq] at hfind
    split
    · next hqp =>
      rw [if_pos hqp] at hfind
      rw [children_of_find? hfind, Record.children_following]
      rfl
    · next hqp => rw [if_neg hqp] at hfind; simp only [Tree.children, hfind]

theorem mem_children_removed (c q : RecordId) :
    c ∈ (t.remove l x).tree.children q ↔
      q ≠ x ∧ c ≠ x ∧ (c ∈ t.children q ∨ (q = p ∧ c ∈ t.children x)) := by
  have hmem := h.parent_iff.1 hp
  have hself : x ∉ t.children x := fun hm => h.ne_of_mem hm rfl
  rw [children_removed (l := l) h hp hx hr hid hne]
  by_cases hq : q = x
  · simp [hq]
  · by_cases hqp : q = p
    · subst hqp
      rw [if_neg hq, if_pos rfl, mem_splice (h.nodup q) hmem]
      constructor
      · rintro (⟨hc, hcx⟩ | hc)
        · exact ⟨hq, hcx, .inl hc⟩
        · exact ⟨hq, fun heq => hself (heq ▸ hc), .inr ⟨rfl, hc⟩⟩
      · rintro ⟨-, hcx, hc | ⟨-, hc⟩⟩
        · exact .inl ⟨hc, hcx⟩
        · exact .inr hc
    · rw [if_neg hq, if_neg hqp]
      constructor
      · intro hc
        exact ⟨hq, fun heq => hqp (h.parent_unique (heq ▸ hc) hmem), .inl hc⟩
      · rintro ⟨-, -, hc | ⟨heq, -⟩⟩
        · exact hc
        · exact absurd heq hqp

theorem contains_removed (y : RecordId) :
    (t.remove l x).tree.contains y = true ↔ y ≠ x ∧ t.contains y = true := by
  show ((t.remove l x).tree.find? y).isSome = true ↔ _ ∧ (t.find? y).isSome = true
  rw [find?_removed (l := l) h hp hx hr hid hne]
  by_cases hy : y = x
  · simp [hy]
  · by_cases hyp : y = p
    · subst hyp
      simp [hy, hr]
    · simp [hy, hyp]

/-- What was below the removed record is below its parent now. -/
theorem reaches_removed {y : RecordId} (hy : t.Reaches rootId y) :
    (t.remove l x).tree.Reaches rootId (if y = x then p else y) := by
  have hpx : p ≠ x := (h.ne_of_mem (h.parent_iff.1 hp)).symm
  have hmem := mem_children_removed (l := l) h hp hx hr hid hne
  induction hy with
  | refl => rw [if_neg (Ne.symm hne)]; exact .refl
  | @tail q c _ hl ih =>
      by_cases hc : c = x
      · -- The parent of the removed record is within reach already.
        have hqp : q = p := h.parent_unique (hc ▸ hl) (h.parent_iff.1 hp)
        rw [if_pos hc]
        rwa [hqp, if_neg hpx] at ih
      · rw [if_neg hc]
        by_cases hq : q = x
        · rw [if_pos hq] at ih
          exact .tail ih ((hmem c p).2 ⟨hpx, hc, .inr ⟨rfl, hq ▸ hl⟩⟩)
        · rw [if_neg hq] at ih
          exact .tail ih ((hmem c q).2 ⟨hq, hc, .inl hl⟩)

theorem linked_removed : (t.remove l x).tree.Linked := by
  have hpx : p ≠ x := (h.ne_of_mem (h.parent_iff.1 hp)).symm
  have hmem := mem_children_removed (l := l) h hp hx hr hid hne
  have hself : x ∉ t.children x := fun hm => h.ne_of_mem hm rfl
  refine ⟨?_, ?_, ?_, ?_, ?_, ?_⟩
  · exact (contains_removed (l := l) h hp hx hr hid hne rootId).2 ⟨Ne.symm hne, h.root_mem⟩
  · intro q hq
    rcases ((hmem rootId q).1 hq).2.2 with hc | ⟨-, hc⟩
    · exact h.root_unlisted q hc
    · exact h.root_unlisted x hc
  · intro q c hc
    obtain ⟨-, hcx, hc | ⟨-, hc⟩⟩ := (hmem c q).1 hc
    all_goals exact (contains_removed (l := l) h hp hx hr hid hne c).2 ⟨hcx, h.listed hc⟩
  · intro q
    rw [children_removed (l := l) h hp hx hr hid hne]
    split
    · exact List.nodup_nil
    · split
      · refine nodup_splice (h.nodup p) (h.parent_iff.1 hp) (h.nodup x) fun c hc hcp => ?_
        exact hpx (h.parent_unique hcp hc)
      · exact h.nodup q
  · intro c q
    rw [hmem, parent?_removed (l := l) h hp hx hr hid hne]
    split
    · next hc =>
      have hcx : c ≠ x := fun heq => hself (heq ▸ hc)
      constructor
      · intro heq
        obtain rfl := Option.some.inj heq
        exact ⟨hpx, hcx, .inr ⟨rfl, hc⟩⟩
      · rintro ⟨hqx, -, hcq | ⟨rfl, -⟩⟩
        · exact absurd (h.parent_unique hcq hc) hqx
        · rfl
    · next hc =>
      split
      · next hcx => simp [hcx]
      · next hcx =>
        rw [h.parent_iff]
        constructor
        · intro hcq
          exact ⟨fun heq => hc (heq ▸ hcq), hcx, .inl hcq⟩
        · rintro ⟨-, -, hcq | ⟨-, hcq⟩⟩
          · exact hcq
          · exact absurd hcq hc
  · intro y hy
    obtain ⟨hyx, hy⟩ := (contains_removed (l := l) h hp hx hr hid hne y).1 hy
    have := reaches_removed (l := l) h hp hx hr hid hne (h.reached hy)
    rwa [if_neg hyx] at this

end Remove

/-- What there is to know of a record that can be removed. -/
theorem WellFormed.exists_parent_record {t : Tree} (h : t.WellFormed) {x : RecordId}
    (hc : t.CanRemove x) :
    ∃ p gone r, t.parent? x = some p ∧ t.find? x = some gone ∧ t.find? p = some r ∧ gone.id = x := by
  obtain ⟨p, hp⟩ := h.exists_parent hc.mem hc.ne_root
  obtain ⟨gone, hx⟩ := contains_iff.1 hc.mem
  obtain ⟨r, hr⟩ := contains_iff.1 (contains_of_mem_children (h.parent_iff.1 hp))
  exact ⟨p, gone, r, hp, hx, hr, h.named hx⟩

theorem WellFormed.remove {t : Tree} (h : t.WellFormed) (l : Library) (x : RecordId) :
    (t.remove l x).tree.WellFormed := by
  by_cases hc : t.CanRemove x
  · obtain ⟨p, gone, r, hp, hx, hr, hid⟩ := h.exists_parent_record hc
    refine h.of_alike (linked_removed h.toLinked hp hx hr hid hc.ne_root) fun {q rq} hrq => .inr ?_
    rw [find?_removed h.toLinked hp hx hr hid hc.ne_root] at hrq
    split at hrq
    · cases hrq
    · split at hrq
      · next hqp =>
        obtain rfl := Option.some.inj hrq
        exact ⟨r, hqp ▸ hr, by simp, by simp⟩
      · exact ⟨rq, hrq, rfl, Iff.rfl⟩
  · rw [remove_of_not hc]
    exact h

/-! ## Updating -/

end Tree

/-- A patch that is allowed makes no root and unmakes none. -/
theorem Patch.kind_apply_allowed {r : Record} (hk : r.kind = .root ↔ r.id = rootId) (p : Patch) :
    ((p.allowed r).apply r).kind = .root ↔ r.kind = .root := by
  unfold allowed
  dsimp only
  split
  · rfl
  · next hno =>
    rw [not_or] at hno
    show p.kind.getD r.kind = .root ↔ _
    cases hpk : p.kind with
    | none => rfl
    | some k =>
        simp only [hpk, Option.any_some, bne_iff_ne, Option.some.injEq, not_and, not_not] at hno
        by_cases hr : r.kind = .root
        · simp [hr, hno.1 hr]
        · simp [hr, hno.2 (fun heq => hr (hk.2 heq))]

namespace Tree

theorem find?_update {t : Tree} {id : RecordId} {r : Record} (hr : t.find? id = some r) (p : Patch)
    (q : RecordId) : (t.update id p).tree.find? q =
      if q = id then some ((p.allowed r).apply r) else t.find? q := by
  rw [update_of_find? hr]
  split
  · next hp =>
    rw [(Patch.isEmpty_iff _).1 hp]
    show t.find? q = _
    split
    · next hq => rw [hq, hr]; rfl
    · rfl
  · show (t.records.modify id _).find? q = _
    rw [IdMap.find?_modify]
    split
    · next hq => rw [hq, show t.records.find? id = some r from hr]; rfl
    · rfl

theorem parents_update (t : Tree) (id : RecordId) (p : Patch) :
    (t.update id p).tree.parents = t.parents := by
  cases hr : t.find? id with
  | none => rw [update_of_find?_none hr]; rfl
  | some r => rw [update_of_find? hr]; split <;> rfl

theorem WellFormed.update {t : Tree} (h : t.WellFormed) (id : RecordId) (p : Patch) :
    (t.update id p).tree.WellFormed := by
  cases hr : t.find? id with
  | none => rw [update_of_find?_none hr]; exact h
  | some r =>
      have hfind := find?_update hr p
      have hlinked : (t.update id p).tree.Linked := by
        refine h.toLinked.congr (fun x => ?_) (fun q => ?_) (parents_update t id p)
        · show ((t.update id p).tree.find? x).isSome = (t.find? x).isSome
          rw [hfind]
          split
          · next hx => rw [hx, hr]; rfl
          · rfl
        · simp only [Tree.children, hfind]
          split
          · next hq => rw [hq, hr]; rfl
          · rfl
      refine h.of_alike hlinked fun {q rq} hrq => .inr ?_
      rw [hfind] at hrq
      split at hrq
      · next hq =>
        obtain rfl := Option.some.inj hrq
        refine ⟨r, hq ▸ hr, rfl, Patch.kind_apply_allowed ?_ p⟩
        rw [h.named hr]
        exact h.kind_iff hr
      · exact ⟨rq, hrq, rfl, Iff.rfl⟩

/-! ## Moving -/

section Move

variable {t : Tree} (h : t.Linked) {s target old : RecordId} {r : Record}
  (hc : t.CanMove s target) (hold : t.parent? s = some old) (hr : t.find? s = some r)
  (place : Option UInt64)

include h hc hold hr

theorem children_move (q : RecordId) :
    (t.move s target place).tree.children q =
      let kept := (t.children q).filter (· != s)
      if q = target then insertAt place s kept else kept := by
  have hkind : ∀ o : Option Record, (if q = s then o.map (Record.unlisting s) else o).elim []
      (·.children) = o.elim [] (·.children) := by
    intro o
    cases o <;> split <;> rfl
  simp only [Tree.children, find?_move h hc hold hr place, hkind]
  by_cases hq : q = target
  · obtain ⟨rt, hrt⟩ := contains_iff.1 hc.target_mem
    subst hq
    simp [hrt, Record.inserting, Record.keeping]
  · cases t.find? q with
    | none => simp [hq]
    | some rq => simp [hq, Record.keeping]

theorem mem_children_move (c q : RecordId) :
    c ∈ (t.move s target place).tree.children q ↔
      (c ∈ t.children q ∧ c ≠ s) ∨ (q = target ∧ c = s) := by
  rw [children_move h hc hold hr]
  by_cases hq : q = target
  · subst hq
    simp [mem_insertAt, or_comm]
  · simp [hq]

theorem contains_move (x : RecordId) :
    (t.move s target place).tree.contains x = t.contains x := by
  show ((t.move s target place).tree.find? x).isSome = (t.find? x).isSome
  rw [find?_move h hc hold hr]
  dsimp only
  split <;> split <;> simp only [Option.isSome_map]

theorem linked_move : (t.move s target place).tree.Linked := by
  have hmem := mem_children_move h hc hold hr place
  refine ⟨?_, ?_, ?_, ?_, ?_, ?_⟩
  · rw [contains_move h hc hold hr]
    exact h.root_mem
  · intro q hq
    rcases (hmem rootId q).1 hq with ⟨hq, -⟩ | ⟨-, heq⟩
    · exact h.root_unlisted q hq
    · exact hc.ne_root heq.symm
  · intro q c hq
    rw [contains_move h hc hold hr]
    rcases (hmem c q).1 hq with ⟨hq, -⟩ | ⟨-, heq⟩
    · exact h.listed hq
    · exact heq ▸ hc.mem
  · intro q
    rw [children_move h hc hold hr]
    have hkept := (h.nodup q).filter (· != s)
    dsimp only
    split
    · exact nodup_insertAt hkept (by simp)
    · exact hkept
  · intro c q
    rw [hmem, parent?_move h hc hold hr]
    by_cases hcs : c = s
    · simp [hcs, eq_comm]
    · simp [hcs, h.parent_iff]
  · intro x hx
    rw [contains_move h hc hold hr] at hx
    refine reaches_of_rewired (· = s) target ?_ (h.reached hc.target_mem)
      ?_ ?_ (h.reached hx)
    · intro q c hl hcs
      exact (hmem c q).2 (.inl ⟨hl, hcs⟩)
    · rintro _ rfl
      exact hc.outside
    · intro m hm
      obtain rfl : s = m := hm.symm
      exact .single ((hmem s target).2 (.inr ⟨rfl, rfl⟩))

end Move

/-- A record that can be moved has a parent. -/
theorem Linked.exists_parent_of_move {t : Tree} (h : t.Linked) {s target : RecordId}
    (hc : t.CanMove s target) : ∃ old r, t.parent? s = some old ∧ t.find? s = some r := by
  obtain ⟨old, hold⟩ := h.exists_parent hc.mem hc.ne_root
  obtain ⟨r, hr⟩ := contains_iff.1 hc.mem
  exact ⟨old, r, hold, hr⟩

theorem WellFormed.move {t : Tree} (h : t.WellFormed) (s target : RecordId)
    (place : Option UInt64) : (t.move s target place).tree.WellFormed := by
  by_cases hc : t.CanMove s target
  · obtain ⟨old, r, hold, hr⟩ := h.exists_parent_of_move hc
    refine h.of_alike (linked_move h.toLinked hc hold hr place) fun {q rq} hrq => .inr ?_
    rw [find?_move h.toLinked hc hold hr] at hrq
    cases hr₀ : t.find? q with
    | none => split at hrq <;> split at hrq <;> simp [hr₀] at hrq
    | some r₀ =>
        refine ⟨r₀, rfl, ?_⟩
        split at hrq <;> split at hrq <;>
          simp only [hr₀, Option.map_some, Option.some.injEq] at hrq <;> subst hrq <;>
          exact ⟨rfl, Iff.rfl⟩
  · rw [h.move_of_not hc]
    exact h

/-! ## Commands -/

mutual

/-- What every edit of one record keeps, every command keeps. -/
theorem apply_induction {P : Tree → Prop} {l : Library}
    (hadd : ∀ t parent r place, P t → P (t.add parent r place).tree)
    (hremove : ∀ t x, P t → P (t.remove l x).tree)
    (hupdate : ∀ t id p, P t → P (t.update id p).tree)
    (hmove : ∀ t source target place, P t → P (t.move source target place).tree) :
    ∀ (c : Command) (t : Tree), P t → P (apply l c t).tree
  | .add parent r place, t, h => by rw [apply]; exact hadd t parent r place h
  | .remove x, t, h => by rw [apply]; exact hremove t x h
  | .update id p, t, h => by rw [apply]; exact hupdate t id p h
  | .move source target place, t, h => by rw [apply]; exact hmove t source target place h
  | .batch cs, t, h => by
      rw [apply]
      exact applyAll_induction hadd hremove hupdate hmove cs t h

theorem applyAll_induction {P : Tree → Prop} {l : Library}
    (hadd : ∀ t parent r place, P t → P (t.add parent r place).tree)
    (hremove : ∀ t x, P t → P (t.remove l x).tree)
    (hupdate : ∀ t id p, P t → P (t.update id p).tree)
    (hmove : ∀ t source target place, P t → P (t.move source target place).tree) :
    ∀ (cs : List Command) (t : Tree), P t → P (applyAll l cs t).tree
  | [], t, h => by rw [applyAll]; exact h
  | c :: rest, t, h => by
      rw [applyAll]
      exact applyAll_induction hadd hremove hupdate hmove rest _
        (apply_induction hadd hremove hupdate hmove c t h)

end

/-- No command spoils a tree. -/
theorem WellFormed.apply {t : Tree} (h : t.WellFormed) (l : Library) (c : Command) :
    (t.apply l c).tree.WellFormed :=
  apply_induction (P := WellFormed) (fun _ parent r place h => h.add parent r place)
    (fun _ x h => h.remove l x) (fun _ id p h => h.update id p)
    (fun _ source target place h => h.move source target place) c t h

theorem WellFormed.applyAll {t : Tree} (h : t.WellFormed) (l : Library) (cs : List Command) :
    (applyAll l cs t).tree.WellFormed :=
  applyAll_induction (P := WellFormed) (fun _ parent r place h => h.add parent r place)
    (fun _ x h => h.remove l x) (fun _ id p h => h.update id p)
    (fun _ source target place h => h.move source target place) cs t h

end Tree

end ColumnTree.Outline
