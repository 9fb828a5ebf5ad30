/-
# The walk up

Nothing bounds the walk up but the index of parents itself: it goes on from parent to parent until it
comes to the record that is searched for, or to one without a parent.  `Ascends` is this walk, followed
as far as it goes.  It ends wherever ways up end, and `isWithin` has its answer
(`Indexed.answers`).

While a new record takes over the children that it lists, the index already names it as their parent,
though it is not there yet, and the lists of children have no place for them.  What the walk rests on
holds all the same (`Indexed`): a way up may lead to the new record, but ends there; and of the records
that are there the index says what the lists of children say.  Both steps that a child is taken over in
keep this, and so does the whole loop (`Indexed.adopt`).
-/
import ColumnTree.Proofs.Outline.Reached

namespace ColumnTree.Outline

/-! ## The walk without a bound -/

/-- The walk up from a record in search of another takes so many steps and ends with this answer. -/
inductive Ascends (m : IdMap RecordId) (a : RecordId) : Nat → RecordId → Bool → Prop where
  /-- The record is found. -/
  | found : Ascends m a 0 a true
  /-- There is no parent to go on to. -/
  | ended {x : RecordId} : x ≠ a → m.find? x = none → Ascends m a 0 x false
  | up {n : Nat} {x p : RecordId} {b : Bool} :
      x ≠ a → m.find? x = some p → Ascends m a n p b → Ascends m a (n + 1) x b

namespace Ascends

variable {m : IdMap RecordId} {a x : RecordId} {n : Nat} {b : Bool}

/-- There is one walk only. -/
theorem unique {k : Nat} {c : Bool} (h : Ascends m a n x b) (h' : Ascends m a k x c) :
    k = n ∧ c = b := by
  induction h generalizing k with
  | found =>
      cases h' with
      | found => exact ⟨rfl, rfl⟩
      | ended hne _ => exact absurd rfl hne
      | up hne _ _ => exact absurd rfl hne
  | ended hne hx =>
      cases h' with
      | found => exact absurd rfl hne
      | ended _ _ => exact ⟨rfl, rfl⟩
      | up _ hp _ => rw [hx] at hp; cases hp
  | up hne hp _ ih =>
      cases h' with
      | found => exact absurd rfl hne
      | ended _ hx => rw [hx] at hp; cases hp
      | up _ hp' hrest =>
          obtain rfl := Option.some.inj (hp.symm.trans hp')
          obtain ⟨rfl, rfl⟩ := ih hrest
          exact ⟨rfl, rfl⟩

/-- With more steps than it takes, the walk that counts them has the same answer. -/
theorem meets?_eq (h : Ascends m a n x b) {fuel : Nat} (hf : n < fuel) :
    Tree.meets? m a fuel x = some b := by
  induction h generalizing fuel with
  | found =>
      obtain ⟨fuel, rfl⟩ := Nat.exists_eq_add_of_lt hf
      simp [Tree.meets?]
  | ended hne hx =>
      obtain ⟨fuel, rfl⟩ := Nat.exists_eq_add_of_lt hf
      simp [Tree.meets?, hne, hx]
  | up hne hp _ ih =>
      obtain ⟨fuel, rfl⟩ := Nat.exists_eq_add_of_lt hf
      simp only [Tree.meets?, if_neg hne, hp]
      exact ih (by omega)

end Ascends

/-- On a way up that ends, the walk ends, and takes no more steps. -/
theorem Climbs.exists_ascends {m : IdMap RecordId} {k : Nat} {x e : RecordId}
    (h : Climbs m k x e) (he : m.find? e = none) (a : RecordId) :
    ∃ n ≤ k, ∃ b, Ascends m a n x b := by
  induction h with
  | @here x =>
      by_cases hx : x = a
      · subst hx
        exact ⟨0, Nat.le_refl 0, true, .found⟩
      · exact ⟨0, Nat.le_refl 0, false, .ended hx he⟩
  | @up k x p e hp _ ih =>
      by_cases hx : x = a
      · subst hx
        exact ⟨0, Nat.zero_le _, true, .found⟩
      · obtain ⟨n, hn, b, hb⟩ := ih he
        exact ⟨n + 1, Nat.succ_le_succ hn, b, .up hx hp hb⟩

/-! ## Ways up that are led elsewhere -/

namespace Grounded

variable {m m' : IdMap RecordId}

theorem up {x p : RecordId} (h : Grounded m p) (hp : m.find? x = some p) : Grounded m x := by
  obtain ⟨n, e, hn, he⟩ := h
  exact ⟨n + 1, e, .up hp hn, he⟩

theorem of_none {x : RecordId} (hx : m.find? x = none) : Grounded m x :=
  ⟨0, x, .here, hx⟩

/-- If some records are given other parents, from which the ways up end, then all still end. -/
theorem of_rewired (hm : ∀ y, m'.find? y = m.find? y ∨ Grounded m' y) {x : RecordId}
    (h : Grounded m x) : Grounded m' x := by
  obtain ⟨n, e, hn, he⟩ := h
  induction hn with
  | here =>
      rcases hm _ with hx | hx
      · exact of_none (hx.trans he)
      · exact hx
  | @up _ x p _ hp _ ih =>
      rcases hm x with hx | hx
      · exact (ih he).up (hx.trans hp)
      · exact hx

end Grounded

namespace Tree

/-! ## What the walk rests on -/

/-- The walk up can be relied on. -/
structure Answers (t : Tree) : Prop where
  /-- From every record in search of every other, there or not, the walk ends.  It takes no more
  steps than the index has entries, and `isWithin` has its answer. -/
  ends : ∀ x a, ∃ n ≤ t.parents.size, ∀ k b,
    Ascends t.parents a k x b ↔ k = n ∧ b = t.isWithin x a
  /-- A record that is there is found just if lists of children lead down from it. -/
  isWithin_iff : ∀ {x a}, t.contains a = true → (t.isWithin x a = true ↔ t.Reaches a x)

/-- The index is fit for walks up: every way up ends, nothing that is not there has a parent, and the
children of a record that is there are those that it lists.  A parent may be missing. -/
structure Indexed (t : Tree) : Prop where
  nodup : ∀ p, (t.children p).Nodup
  grounded : ∀ x, Grounded t.parents x
  parent?_eq_none : ∀ {x}, t.contains x = false → t.parent? x = none
  parent_iff : ∀ {c p}, t.contains p = true → (t.parent? c = some p ↔ c ∈ t.children p)

theorem Linked.indexed {t : Tree} (h : t.Linked) : t.Indexed :=
  ⟨h.nodup, h.grounded, h.parent?_eq_none, fun _ => h.parent_iff⟩

namespace Indexed

variable {t : Tree} (h : t.Indexed)

include h

/-- The ways up to a record that is there are the ways down from it backwards. -/
theorem climbs_iff {x a : RecordId} (ha : t.contains a = true) :
    (∃ n, Climbs t.parents n x a) ↔ t.Reaches a x := by
  constructor
  · rintro ⟨n, hn⟩
    induction hn with
    | here => exact .refl
    | @up n x p a hp hrest ih =>
        have hmem : t.contains p = true := by
          -- From a parent that is missing the way goes no further.
          rw [← Bool.not_eq_false]
          intro hmissing
          cases hrest with
          | here => rw [ha] at hmissing; cases hmissing
          | up hp' _ => cases (h.parent?_eq_none hmissing).symm.trans hp'
        exact .tail (ih ha) ((h.parent_iff hmem).1 hp)
  · intro hr
    induction hr with
    | refl => exact ⟨0, .here⟩
    | tail _ hl ih =>
        obtain ⟨n, hn⟩ := ih
        exact ⟨n + 1, .up ((h.parent_iff (contains_of_mem_children hl)).2 hl) hn⟩

theorem answers : t.Answers where
  ends x a := by
    obtain ⟨k, e, hk, he⟩ := h.grounded x
    obtain ⟨n, hn, b, hb⟩ := hk.exists_ascends he a
    have hsize : n ≤ t.parents.size := Nat.le_trans hn (hk.length_le_size he)
    have hwithin : t.isWithin x a = b := by
      rw [isWithin, hb.meets?_eq (Nat.lt_succ_of_le hsize)]
      rfl
    refine ⟨n, hsize, fun j c => ?_⟩
    rw [hwithin]
    constructor
    · intro hc
      exact hb.unique hc
    · rintro ⟨rfl, rfl⟩
      exact hb
  isWithin_iff ha := (getD_meets? (h.grounded _)).trans (h.climbs_iff ha)

/-! ## Taking a child over -/

theorem find?_detach (c q : RecordId) :
    (t.detach c).find? q = (t.find? q).map (Record.keeping (· != c)) :=
  Tree.find?_detach h.nodup
    (fun _ hq => (h.parent_iff (contains_of_mem_children hq)).2 hq) q

theorem contains_detach (c x : RecordId) : (t.detach c).contains x = t.contains x := by
  show ((t.detach c).find? x).isSome = (t.find? x).isSome
  rw [h.find?_detach, Option.isSome_map]

theorem children_detach (c q : RecordId) :
    (t.detach c).children q = (t.children q).filter (· != c) := by
  unfold children
  rw [h.find?_detach]
  cases t.find? q <;> rfl

/-- A record may leave its list. -/
theorem detach (c : RecordId) : (t.detach c).Indexed where
  nodup p := by
    rw [h.children_detach]
    exact (h.nodup p).filter _
  grounded x := by
    refine (h.grounded x).of_rewired fun y => ?_
    have hy : (t.detach c).parent? y = if y = c then none else t.parent? y := parent?_detach y
    by_cases hyc : y = c
    · rw [if_pos hyc] at hy
      exact .inr (.of_none hy)
    · rw [if_neg hyc] at hy
      exact .inl hy
  parent?_eq_none {x} hx := by
    rw [h.contains_detach] at hx
    rw [parent?_detach, h.parent?_eq_none hx, ite_self]
  parent_iff {x p} hp := by
    rw [h.contains_detach] at hp
    rw [parent?_detach, h.children_detach, List.mem_filter, ← h.parent_iff hp]
    by_cases hx : x = c
    · simp [hx]
    · simp [hx]

/-- A record without a parent may be entered below one that is missing. -/
theorem enter {c id : RecordId} (hc : t.contains c = true) (hfree : t.parent? c = none)
    (hid : t.contains id = false) : Indexed { t with parents := t.parents.insert c id } := by
  have hne : id ≠ c := by
    rintro rfl
    rw [hid] at hc
    cases hc
  have hparent : ∀ x, parent? { t with parents := t.parents.insert c id } x =
      if x = c then some id else t.parent? x := fun x => IdMap.find?_insert _ _ _ _
  refine ⟨h.nodup, ?_, ?_, ?_⟩
  · intro x
    refine (h.grounded x).of_rewired fun y => ?_
    have hy := hparent y
    by_cases hyc : y = c
    · -- The way up goes on to the missing record and ends there.
      rw [if_pos hyc] at hy
      have htop := hparent id
      rw [if_neg hne, h.parent?_eq_none hid] at htop
      exact .inr ((Grounded.of_none htop).up hy)
    · rw [if_neg hyc] at hy
      exact .inl hy
  · intro x hx
    have hxc : x ≠ c := by
      rintro rfl
      cases hc.symm.trans hx
    rw [hparent, if_neg hxc]
    exact h.parent?_eq_none hx
  · intro x p hp
    rw [hparent]
    show _ ↔ x ∈ t.children p
    rw [← h.parent_iff hp]
    split
    · next hx =>
      rw [hx, hfree]
      constructor
      · intro heq
        obtain rfl := Option.some.inj heq
        cases hid.symm.trans hp
      · intro heq
        cases heq
    · rfl

/-- The whole loop keeps the index fit for walks up, and adds no record. -/
theorem adopt {id : RecordId} (hid : t.contains id = false) (parent : RecordId)
    (listed gone : List RecordId) : (adopt parent id listed gone t).1.Indexed ∧
      ∀ x, (adopt parent id listed gone t).1.contains x = t.contains x := by
  induction listed generalizing gone t with
  | nil => exact ⟨h, fun _ => rfl⟩
  | cons c rest ih =>
      rw [Tree.adopt]
      split
      · next htaken =>
        obtain ⟨hok, -⟩ := Bool.and_eq_true_iff.1 htaken
        have hc : t.contains c = true := by
          simp only [adoptable, Bool.and_eq_true] at hok
          exact hok.1.2
        have hfree : (t.detach c).parent? c = none := by
          rw [parent?_detach, if_pos rfl]
        have hmissing : (t.detach c).contains id = false := (h.contains_detach c id).trans hid
        have henter := (h.detach c).enter ((h.contains_detach c c).trans hc) hfree hmissing
        obtain ⟨hindexed, hcontains⟩ := ih henter hmissing (gone ++ [c])
        exact ⟨hindexed, fun x => (hcontains x).trans (h.contains_detach c x)⟩
      · exact ih h hid gone

end Indexed

/-! ## The loop -/

/-- After the first of the children that it lists, a new record goes on with the others. -/
theorem adopt_append (parent id : RecordId) (xs ys gone : List RecordId) (t : Tree) :
    adopt parent id (xs ++ ys) gone t =
      adopt parent id ys (adopt parent id xs gone t).2 (adopt parent id xs gone t).1 := by
  induction xs generalizing gone t with
  | nil => rfl
  | cons c xs ih =>
      rw [List.cons_append, adopt, adopt]
      split
      · exact ih _ _
      · exact ih _ _

/-- The trees that there are while a new record takes over the children that it lists: before each
of these and after the last, and in between when one has left its list and is not yet entered below
the new record. -/
inductive Adopting (t : Tree) (parent : RecordId) (r : Record) : Tree → Prop where
  | passed {xs ys : List RecordId} : r.children = xs ++ ys →
      Adopting t parent r (adopt parent r.id xs [] t).1
  | detached {xs ys : List RecordId} {c : RecordId} : r.children = xs ++ c :: ys →
      (adopt parent r.id xs [] t).1.adoptable parent c = true → c ∉ (adopt parent r.id xs [] t).2 →
        Adopting t parent r ((adopt parent r.id xs [] t).1.detach c)

theorem Indexed.adopting {t t' : Tree} (h : t.Indexed) {parent : RecordId} {r : Record}
    (hc : t.CanAdd parent r) (ht : t.Adopting parent r t') : t'.Indexed := by
  cases ht with
  | passed _ => exact (h.adopt hc.fresh parent _ []).1
  | detached _ _ _ => exact (h.adopt hc.fresh parent _ []).1.detach _

end Tree

namespace Editor

/-- In every tree that an editor reaches, and in every tree that there is while a new record takes over
children below a record of it, the walk up ends from all records in search of all others, and it finds
a record that is there just if lists of children lead down from it. -/
theorem Reached.walk_up_ends {e : Editor} (h : e.Reached) :
    e.tree.Answers ∧ ∀ parent r, e.tree.CanAdd parent r →
      (∀ xs ys, r.children = xs ++ ys → Tree.adopt parent r.id r.children [] e.tree =
        Tree.adopt parent r.id ys (Tree.adopt parent r.id xs [] e.tree).2
          (Tree.adopt parent r.id xs [] e.tree).1) ∧
      ∀ t, e.tree.Adopting parent r t → t.Answers := by
  have hindexed := h.wellFormed.toLinked.indexed
  refine ⟨hindexed.answers, fun parent r hc => ⟨fun xs ys heq => ?_, fun t ht => ?_⟩⟩
  · rw [heq]
    exact Tree.adopt_append parent r.id xs ys [] e.tree
  · exact (hindexed.adopting hc ht).answers

/-- A record whose child stays behind under it is taken over by one that is not there yet. -/
theorem Reached.walk_up_ends_halfway :
    let e : Editor := ofTree .empty (.alone "t")
    let e := (e.apply (.batch [.add 0 (.column 1 "a") none, .add 1 (.column 2 "b") none,
      .add 2 (.column 3 "c") none])).1
    let r : Record := ⟨4, "d", .column, .unknown, "", true, [2, 2, 9, 1], none⟩
    let t := (Tree.adopt 0 4 [2] [] e.tree).1
    e.Reached ∧ e.tree.CanAdd 0 r ∧ e.tree.Adopting 0 r t ∧ t.parent? 2 = some 4 ∧
      t.contains 4 = false ∧ t.Reaches 2 3 ∧ ¬ t.Reaches 1 2 ∧ ∃ n, Ascends t.parents 7 n 3 false := by
  intro e₀ e r t
  have h : e.Reached := .apply _ (.alone .empty "t")
  have hc : e.tree.CanAdd 0 r := ⟨by decide, by decide, by decide, by decide⟩
  have ht : e.tree.Adopting 0 r t := .passed (show r.children = [2] ++ [2, 9, 1] from rfl)
  obtain ⟨-, hadopting⟩ := Reached.walk_up_ends h
  have hanswers := (hadopting 0 r hc).2 t ht
  obtain ⟨n, -, hn⟩ := hanswers.ends 3 7
  refine ⟨h, hc, ht, by decide, by decide, ?_, ?_, n, (hn n false).2 ⟨rfl, by decide⟩⟩
  · exact (hanswers.isWithin_iff (by decide)).1 (by decide)
  · intro hreaches
    have := (hanswers.isWithin_iff (x := 2) (a := 1) (by decide)).2 hreaches
    revert this
    decide

end Editor

end ColumnTree.Outline
