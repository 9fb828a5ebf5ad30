/-
# Taking single edits back

For each edit of one record: what comes out when the command that is said to take it back is applied
to the tree after it.  The outline of the tree is restored, provided that a new record has adopted
nothing, and so is the tree itself, unless an aggregation has been changed on the way: one that a
new record was put below follows when the record leaves again, one that was missing is made up when
its record comes back, and a record that listed itself no longer does after a move.
-/
import ColumnTree.Proofs.Outline.Alike
import Mathlib.Data.Fintype.Card

namespace ColumnTree.Outline

open Formula

/-! ## Places in lists -/

/-- No more numbers than there are can differ. -/
theorem length_le_of_nodup {l : List RecordId} (h : l.Nodup) : l.length ≤ UInt64.size := by
  have hinj : Function.Injective UInt64.toFin := fun a b hab => UInt64.toFin_inj.1 hab
  have := List.Nodup.length_le_card (h.map hinj)
  rwa [List.length_map, Fintype.card_fin] at this

theorem toNat_placeOf {x : RecordId} {a b : List RecordId} (h : (a ++ x :: b).Nodup) :
    (placeOf x (a ++ x :: b)).toNat = a.length := by
  have hxa : x ∉ a := fun hm => (List.nodup_append.1 h).2.2 x hm x (by simp) rfl
  have hall : ∀ c ∈ a, (c != x) = true := fun c hc => by
    simpa using fun heq : c = x => hxa (heq ▸ hc)
  have hlength := length_le_of_nodup h
  rw [List.length_append, List.length_cons] at hlength
  rw [placeOf, List.takeWhile_append_of_pos hall]
  simp only [List.takeWhile_cons, bne_self_eq_false, Bool.false_eq_true, if_false, List.append_nil]
  exact UInt64.toNat_ofNat_of_lt' (by omega)

/-- An item that is put in at the place where it stood stands there again, if just the items that
stood beside it are left. -/
theorem insertAt_placeOf {x : RecordId} {l : List RecordId} (h : l.Nodup) (hx : x ∈ l) :
    insertAt (some (placeOf x l)) x (l.filter (· != x)) = l := by
  have heq := takeWhile_append_dropWhile_of_mem hx
  generalize l.takeWhile (· != x) = a at heq
  generalize (l.dropWhile (· != x)).drop 1 = b at heq
  subst heq
  have hne : ∀ c ∈ a ++ b, (c != x) = true := by
    intro c hc
    have := (List.nodup_middle.1 h)
    simpa using fun heq : c = x => (List.nodup_cons.1 this).1 (heq ▸ hc)
  have hfilter : (a ++ x :: b).filter (· != x) = a ++ b := by
    rw [List.filter_append, List.filter_cons_of_neg (by simp), ← List.filter_append,
      List.filter_eq_self.2 hne]
  rw [hfilter, insertAt, toNat_placeOf h]
  simp

/-- A list with more items, last or at a place. -/
def insertAllAt (place : Option UInt64) (ids l : List RecordId) : List RecordId :=
  match place with
  | none => l ++ ids
  | some i => l.take i.toNat ++ ids ++ l.drop i.toNat

theorem insertAllAt_nil (place : Option UInt64) (l : List RecordId) :
    insertAllAt place [] l = l := by
  cases place <;> simp [insertAllAt]

/-- Others that are spliced in for an item that was put in stand at its place. -/
theorem splice_insertAt {x : RecordId} {l : List RecordId} (hx : x ∉ l) (place : Option UInt64)
    (others : List RecordId) : splice x others (insertAt place x l) = insertAllAt place others l := by
  cases place with
  | none =>
      rw [insertAt, splice_eq hx, List.append_nil]
      rfl
  | some i =>
      have hx : x ∉ l.take i.toNat := fun hm => hx (List.mem_of_mem_take hm)
      rw [insertAt, splice_eq hx]
      rfl

/-- Others that are spliced in and taken out again leave the rest. -/
theorem filter_splice {x : RecordId} {others l : List RecordId} (h : l.Nodup) (hx : x ∈ l)
    (hd : ∀ c ∈ others, c ∉ l) :
    (splice x others l).filter (fun c => !others.contains c) = l.filter (· != x) := by
  have heq := takeWhile_append_dropWhile_of_mem hx
  generalize l.takeWhile (· != x) = a at heq
  generalize (l.dropWhile (· != x)).drop 1 = b at heq
  subst heq
  have hxab := (List.nodup_cons.1 (List.nodup_middle.1 h)).1
  have hxa : x ∉ a := fun hm => hxab (by simp [hm])
  have hkeep : ∀ c ∈ a ++ b, (!others.contains c) = (c != x) := by
    intro c hc
    have hco : c ∉ others := fun hm => hd c hm (List.mem_append.2
      ((List.mem_append.1 hc).imp_right (List.mem_cons_of_mem x)))
    have hcx : c ≠ x := fun heq => hxab (heq ▸ hc)
    simp [hco, hcx]
  have hothers : others.filter (fun c => !others.contains c) = [] := by
    simp
  rw [splice_eq hxa]
  simp only [List.filter_append, List.filter_cons, hothers, List.append_nil]
  rw [← List.filter_append, List.filter_congr hkeep]
  simp

namespace Tree

/-- Trees are equal if they answer alike. -/
theorem ext_find? {t t' : Tree} (hfind : ∀ q, t.find? q = t'.find? q)
    (hparent : ∀ x, t.parent? x = t'.parent? x) : t = t' := by
  obtain ⟨records, parents⟩ := t
  obtain ⟨records', parents'⟩ := t'
  obtain rfl : records = records' := IdMap.ext_find? hfind
  obtain rfl : parents = parents' := IdMap.ext_find? hparent
  rfl

theorem tree_apply_pair (l : Library) (t : Tree) (c d : Command) :
    (t.apply l (.batch [c, d])).tree = ((t.apply l c).tree.apply l d).tree := by
  rw [apply, applyAll, applyAll, applyAll]
  rfl

/-! ## Removing what was added -/

end Tree

namespace Record

/-- The record with more children, last or at a place among the others. -/
def insertingAll (place : Option UInt64) (ids : List RecordId) (r : Record) : Record :=
  { r with children := insertAllAt place ids r.children }

theorem insertingAll_nil (place : Option UInt64) (r : Record) : r.insertingAll place [] = r := by
  rw [insertingAll, insertAllAt_nil]

/-- How a formula follows a removal depends on the number and the name of what was removed. -/
theorem following_congr {gone gone' : Record} (hid : gone.id = gone'.id)
    (hname : gone.name = gone'.name) (l : Library) (r : Record) :
    r.following l gone = r.following l gone' := by
  simp only [following, Tree.followRemoval, Aggregation.afterRemoval, hid, hname]

theorem name_completed (r : Record) : r.completed.name = r.name := by
  unfold completed
  split <;> rfl

end Record

namespace Tree

section Add

variable {t : Tree} (h : t.WellFormed) {parent : RecordId} {r : Record} (hc : t.CanAdd parent r)
  (place : Option UInt64) (l : Library)

include h hc

/-- When a new record leaves again, what it had adopted stays in its place. -/
theorem find?_remove_add {rp : Record} (hrp : t.find? parent = some rp) (q : RecordId) :
    ((t.add parent r place).tree.remove l r.id).tree.find? q =
      let kept := Record.keeping fun c => !(t.adoptees parent r.children).contains c
      if q = parent then
        some (((kept rp).insertingAll place (t.adoptees parent r.children)).following l r)
      else (t.find? q).map kept := by
  have hfind := hc.find? place h.toLinked
  generalize hadopted : t.adoptees parent r.children = adopted at hfind
  have hp : (t.add parent r place).tree.parent? r.id = some parent := by
    rw [hc.parent? place h.toLinked, if_pos rfl]
  have hx := (hfind r.id).trans (if_pos rfl)
  have hr : (t.add parent r place).tree.find? parent =
      some ((rp.keeping fun c => !adopted.contains c).inserting place r.id) := by
    rw [hfind, if_neg hc.ne, if_pos rfl, hrp, Option.map_some, Option.map_some]
  have hfresh : r.id ∉ (rp.keeping fun c => !adopted.contains c).children := by
    intro hm
    refine hc.not_mem h.toLinked parent ?_
    rw [children_of_find? hrp]
    exact (List.mem_filter.1 hm).1
  have hback : ((rp.keeping fun c => !adopted.contains c).inserting place r.id).splicing r.id
      adopted = (rp.keeping fun c => !adopted.contains c).insertingAll place adopted := by
    unfold Record.splicing Record.insertingAll Record.inserting
    simp only [splice_insertAt hfresh]
  have hgone : ({ r.completed with children := adopted } : Record).name = r.name :=
    r.name_completed
  rw [find?_removed (hc.linked place h.toLinked) hp hx hr (by simp) hc.id_ne, hback,
    Record.following_congr (by simp) hgone]
  by_cases hq : q = r.id
  · have hqp : q ≠ parent := fun heq => hc.ne (heq.symm.trans hq)
    rw [if_pos hq, if_neg hqp, hq, contains_eq_false_iff.1 hc.fresh]
    rfl
  · by_cases hqp : q = parent
    · rw [if_neg hq, if_pos hqp, if_pos hqp]
    · rw [if_neg hq, if_neg hqp, if_neg hqp, hfind, if_neg hq, if_neg hqp]

theorem parent?_remove_add (x : RecordId) :
    ((t.add parent r place).tree.remove l r.id).tree.parent? x =
      if x ∈ t.adoptees parent r.children then some parent else t.parent? x := by
  have hlinked := hc.linked place h.toLinked
  have hfind := hc.find? place h.toLinked
  have hp : (t.add parent r place).tree.parent? r.id = some parent := by
    rw [hc.parent? place h.toLinked, if_pos rfl]
  have hx := (hfind r.id).trans (if_pos rfl)
  obtain ⟨rp, hrp⟩ := contains_iff.1 ((hc.contains place h.toLinked parent).2 (.inr hc.parent_mem))
  rw [parent?_removed hlinked hp hx hrp (by simp) hc.id_ne, hc.children place h.toLinked,
    if_pos rfl, hc.parent? place h.toLinked]
  split
  · rfl
  · split
    · next heq => rw [heq, h.parent?_eq_none hc.fresh]
    · rfl

end Add

/-! ## Adding what was removed -/

section Remove

variable {l : Library} {t : Tree} (h : t.WellFormed) {x p : RecordId} {gone r : Record}
  (hp : t.parent? x = some p) (hx : t.find? x = some gone) (hr : t.find? p = some r)
  (hid : gone.id = x) (hne : x ≠ rootId)

include h hp hx hr hid hne

theorem canAdd_removed : (t.remove l x).tree.CanAdd p gone := by
  have hcontains := contains_removed (l := l) h.toLinked hp hx hr hid hne
  refine ⟨?_, hid ▸ hne, fun hk => hne ((h.kind_iff hx).1 hk), ?_⟩
  · exact (hcontains p).2 ⟨(h.ne_of_mem (h.parent_iff.1 hp)).symm, contains_iff.2 ⟨r, hr⟩⟩
  · rw [← Bool.not_eq_true, hid, hcontains]
    simp

/-- The record gets all its children back. -/
theorem adoptees_removed : (t.remove l x).tree.adoptees p gone.children = gone.children := by
  have hlinked := linked_removed (l := l) h.toLinked hp hx hr hid hne
  have hnodup : gone.children.Nodup := children_of_find? hx ▸ h.nodup x
  unfold adoptees
  rw [List.filter_eq_self.2, eraseDups_of_nodup hnodup]
  intro c hc
  rw [← children_of_find? hx] at hc
  have hpar : (t.remove l x).tree.parent? c = some p := by
    rw [parent?_removed (l := l) h.toLinked hp hx hr hid hne, if_pos hc]
  have hmem := hlinked.parent_iff.1 hpar
  refine hlinked.adoptable_iff.2 ⟨?_, hlinked.listed hmem, hlinked.not_reaches_of_mem hmem⟩
  rintro rfl
  exact hlinked.root_unlisted p hmem

theorem find?_add_removed (q : RecordId) :
    ((t.remove l x).tree.add p gone (some (placeOf gone.id r.children))).tree.find? q =
      if q = x then some gone.completed
      else if q = p then some (r.following l gone)
      else t.find? q := by
  have hc := canAdd_removed (l := l) h hp hx hr hid hne
  have hpx : p ≠ x := (h.ne_of_mem (h.parent_iff.1 hp)).symm
  have hmem : x ∈ r.children := children_of_find? hr ▸ h.parent_iff.1 hp
  have hnodup : r.children.Nodup := children_of_find? hr ▸ h.nodup p
  -- The children of the removed record stand in no other list.
  have hdisjoint : ∀ {y ry}, t.find? y = some ry → y ≠ x → ∀ c ∈ gone.children, c ∉ ry.children := by
    intro y ry hy hyx c hc hcy
    rw [← children_of_find? hx] at hc
    rw [← children_of_find? hy] at hcy
    exact hyx (h.parent_unique hcy hc)
  rw [hc.find? _ (linked_removed h.toLinked hp hx hr hid hne),
    adoptees_removed h hp hx hr hid hne, find?_removed h.toLinked hp hx hr hid hne, hid]
  by_cases hq : q = x
  · have : { gone.completed with children := gone.children } = gone.completed := by
      unfold Record.completed
      split <;> rfl
    rw [if_pos hq, if_pos hq, this]
  · rw [if_neg hq, if_neg hq, if_neg hq]
    by_cases hqp : q = p
    · simp only [if_pos hqp, Option.map_some, Option.some.injEq]
      have hlist : ((r.splicing x gone.children).following l gone).children =
          splice x gone.children r.children := Record.children_following ..
      have hback : insertAt (some (placeOf x r.children)) x
          ((splice x gone.children r.children).filter fun c => !gone.children.contains c) =
            r.children := by
        rw [filter_splice hnodup hmem (hdisjoint hr hpx), insertAt_placeOf hnodup hmem]
      unfold Record.inserting Record.keeping
      simp only [hlist, hback]
      unfold Record.following
      rw [followRemoval_splicing]
      split <;> rfl
    · simp only [if_neg hqp]
      cases hy : t.find? q with
      | none => rfl
      | some ry =>
          rw [Option.map_some, Record.keeping_eq_self]
          intro c hcy
          simpa using fun hc => hdisjoint hy hq c hc hcy

theorem parent?_add_removed (y : RecordId) :
    ((t.remove l x).tree.add p gone (some (placeOf gone.id r.children))).tree.parent? y =
      t.parent? y := by
  have hc := canAdd_removed (l := l) h hp hx hr hid hne
  rw [hc.parent? _ (linked_removed h.toLinked hp hx hr hid hne),
    adoptees_removed h hp hx hr hid hne, parent?_removed h.toLinked hp hx hr hid hne, hid,
    ← children_of_find? hx]
  by_cases hy : y = x
  · rw [if_pos hy, hy, hp]
  · rw [if_neg hy]
    by_cases hyx : y ∈ t.children x
    · rw [if_pos hyx, h.parent_iff.2 hyx]
    · rw [if_neg hyx, if_neg hyx, if_neg hy]

end Remove

/-! ## Updating back -/

end Tree

/-- The patch that was captured is allowed on the record that was patched. -/
theorem Patch.allowed_capture {r : Record} (hk : r.kind = .root ↔ r.id = rootId) (p : Patch) :
    ((p.allowed r).capture r).allowed ((p.allowed r).apply r) = (p.allowed r).capture r := by
  have hkind := Patch.kind_apply_allowed hk p
  generalize p.allowed r = q at hkind
  unfold allowed
  rw [if_neg]
  rw [not_or, hkind]
  refine ⟨?_, ?_⟩
  · rintro ⟨hr, hany⟩
    cases hq : q.kind <;> simp [capture, hq, hr] at hany
  · rintro ⟨hid, hsome⟩
    cases hq : q.kind with
    | none => simp [capture, hq] at hsome
    | some k =>
        simp only [capture, hq, Option.map_some, Option.some.injEq] at hsome
        exact hid (hk.1 hsome)

namespace Tree

theorem update_update {t : Tree} (h : t.WellFormed) {id : RecordId} {r : Record}
    (hr : t.find? id = some r) (p : Patch) :
    ((t.update id p).tree.update id ((p.allowed r).capture r)).tree = t := by
  have hk : r.kind = .root ↔ r.id = rootId := by
    rw [h.named hr]
    exact h.kind_iff hr
  have hr' : (t.update id p).tree.find? id = some ((p.allowed r).apply r) := by
    rw [find?_update hr, if_pos rfl]
  refine ext_find? (fun q => ?_) fun x => ?_
  · rw [find?_update hr', find?_update hr, Patch.allowed_capture hk, Patch.apply_capture]
    split
    · next hq => rw [hq, hr]
    · rfl
  · unfold parent?
    rw [parents_update, parents_update]

/-! ## Moving back -/

end Tree

theorem Record.unlisting_unlisting (r : Record) (id : RecordId) :
    (r.unlisting id).unlisting id = r.unlisting id := by
  unfold unlisting
  cases r.aggregation? with
  | none => rfl
  | some a => simp only [Option.map_some, Aggregation.without_eq_self (a.lists_without id)]

theorem Record.keeping_inserting (r : Record) (place : Option UInt64) (id : RecordId) :
    (r.inserting place id).keeping (· != id) = r.keeping (· != id) := by
  simp only [keeping, inserting, filter_insertAt]

namespace Tree

section Move

variable {t : Tree} (h : t.Linked) {s target old : RecordId} {r : Record}
  (hc : t.CanMove s target) (hold : t.parent? s = some old) (hr : t.find? s = some r)
  (place : Option UInt64)

include h hc hold hr

/-- What was not below the record that was moved is not below it then. -/
theorem reaches_of_reaches_move {x : RecordId} (hx : (t.move s target place).tree.Reaches s x) :
    t.Reaches s x := by
  induction hx with
  | refl => exact .refl
  | @tail q c _ hl ih =>
      rcases (mem_children_move h hc hold hr place c q).1 hl with ⟨hcq, -⟩ | ⟨hq, -⟩
      · exact .tail ih hcq
      · exact absurd (hq ▸ ih) hc.outside

theorem canMove_moved : (t.move s target place).tree.CanMove s old := by
  have hmem := h.parent_iff.1 hold
  refine ⟨?_, hc.ne_root, ?_, fun hreach => ?_⟩
  · rw [contains_move h hc hold hr]
    exact hc.mem
  · rw [contains_move h hc hold hr]
    exact contains_of_mem_children hmem
  · exact h.not_reaches_of_mem hmem (reaches_of_reaches_move h hc hold hr place hreach)

/-- Moving there and back leaves all records but the one that was moved. -/
theorem find?_move_move (q : RecordId) :
    ((t.move s target place).tree.move s old (some (placeOf s (t.children old)))).tree.find? q =
      if q = s then some (r.unlisting s) else t.find? q := by
  have hback := canMove_moved h hc hold hr place
  have hlinked := linked_move h hc hold hr place
  have hmem := h.parent_iff.1 hold
  have hso : s ≠ old := h.ne_of_mem hmem
  have hst : s ≠ target := fun heq => hc.outside (heq ▸ .refl)
  have hself : s ∉ t.children s := fun hm => h.ne_of_mem hm rfl
  have hold' : (t.move s target place).tree.parent? s = some target := by
    rw [parent?_move h hc hold hr, if_pos rfl]
  have hkept : ∀ {q rq}, t.find? q = some rq → s ∉ t.children q → rq.keeping (· != s) = rq := by
    intro q rq hq hs
    rw [children_of_find? hq] at hs
    exact Record.keeping_eq_self fun c hc => by simpa using fun heq : c = s => hs (heq ▸ hc)
  have hr' : (t.move s target place).tree.find? s = some (r.unlisting s) := by
    rw [find?_move h hc hold hr]
    simp only [if_neg hst, if_true, hr, Option.map_some, hkept hr hself]
  rw [find?_move hlinked hback hold' hr']
  by_cases hq : q = s
  · subst hq
    have : (r.unlisting q).keeping (· != q) = r.unlisting q := by
      show (r.keeping (· != q)).unlisting q = r.unlisting q
      rw [hkept hr hself]
    simp only [if_true, if_neg hso, hr', Option.map_some, this, Record.unlisting_unlisting]
  · simp only [if_neg hq, find?_move h hc hold hr]
    cases hrq : t.find? q with
    | none => by_cases hqo : q = old <;> by_cases hqt : q = target <;> simp [hqo, hqt]
    | some rq =>
        -- Whether it was put among the children of `q` or not, the record is taken out of them.
        have htaken : ((if q = target then
            ((some rq).map (Record.keeping (· != s))).map (Record.inserting place s)
            else (some rq).map (Record.keeping (· != s))).map (Record.keeping (· != s))) =
              some (rq.keeping (· != s)) := by
          split
          · simp [Record.keeping_inserting, Record.keeping_keeping]
          · simp [Record.keeping_keeping]
        rw [htaken]
        by_cases hqo : q = old
        · subst hqo
          rw [children_of_find? hrq] at hmem ⊢
          have hnodup := children_of_find? hrq ▸ h.nodup q
          simp only [if_true, Option.map_some, Record.inserting, Record.keeping,
            insertAt_placeOf hnodup hmem]
        · rw [if_neg hqo, hkept hrq fun hm => hqo (h.parent_unique hm hmem)]

theorem parent?_move_move (x : RecordId) :
    ((t.move s target place).tree.move s old (some (placeOf s (t.children old)))).tree.parent? x =
      t.parent? x := by
  have hback := canMove_moved h hc hold hr place
  have hlinked := linked_move h hc hold hr place
  have hold' : (t.move s target place).tree.parent? s = some target := by
    rw [parent?_move h hc hold hr, if_pos rfl]
  obtain ⟨r', hr'⟩ := contains_iff.1 hback.mem
  rw [parent?_move hlinked hback hold' hr', parent?_move h hc hold hr]
  split
  · next hx => rw [hx, hold]
  · rfl

end Move

end Tree

end ColumnTree.Outline
