/-
# What a removal leaves

The records of a view are listed each before what is below it, with their levels (`View.listing`).
After a record was removed the listing is the one before without it, and what was below it has risen
by one level (`listing_remove`).  So nothing is lost, doubled or put elsewhere when the children go
to the place of the record.
-/
import ColumnTree.Proofs.Outline.Reached
import ColumnTree.Proofs.Outline.Viewed

namespace ColumnTree.Outline

open Formula

/-! ## Listings -/

namespace View

mutual

/-- The numbers in a view with their levels, each before what is below it; the level of the top is
given. -/
def listing (level : Nat) : View → List (RecordId × Nat)
  | node id _ children .. => (id, level) :: listingAll (level + 1) children

/-- The numbers in several views with their levels. -/
def listingAll (level : Nat) : List View → List (RecordId × Nat)
  | [] => []
  | v :: rest => listing level v ++ listingAll level rest

end

/-- The numbers in a view, each before those below it. -/
def ids (v : View) : List RecordId :=
  (v.listing 0).map (·.1)

theorem listingAll_eq (level : Nat) (vs : List View) :
    listingAll level vs = vs.flatMap (listing level) := by
  induction vs with
  | nil => rfl
  | cons v rest ih => rw [listingAll, ih, List.flatMap_cons]

end View

theorem Record.listing_viewOver (r : Record) (vs : List View) (level : Nat) :
    (r.viewOver vs).listing level = (r.id, level) :: vs.flatMap (View.listing (level + 1)) := by
  rw [viewOver, View.listing, View.listingAll_eq]

/-- When a formula follows only the aggregation changes. -/
theorem Record.exists_following (r : Record) (l : Library) (gone : Record) :
    ∃ info, r.following l gone = { r with aggregation? := info } := by
  unfold following
  split
  · exact ⟨r.aggregation?, rfl⟩
  · exact ⟨_, rfl⟩

namespace Tree

/-- The listing of the view of a record, which is at a level. -/
def listing (t : Tree) (level : Nat) (x : RecordId) : List (RecordId × Nat) :=
  (t.view? x).elim [] (View.listing level)

theorem flatMap_listing (t : Tree) (level : Nat) (cs : List RecordId) :
    (cs.filterMap t.view?).flatMap (View.listing level) = cs.flatMap (t.listing level) := by
  induction cs with
  | nil => rfl
  | cons c rest ih =>
      rw [List.flatMap_cons, listing]
      cases hc : t.view? c with
      | none => rw [List.filterMap_cons_none hc, ih]; rfl
      | some v => rw [List.filterMap_cons_some hc, List.flatMap_cons, ih]; rfl

namespace WellFormed

variable {t : Tree} (h : t.WellFormed)

include h

/-- A record stands before its children. -/
theorem listing_eq {x : RecordId} (hx : t.contains x = true) (level : Nat) :
    t.listing level x = (x, level) :: (t.children x).flatMap (t.listing (level + 1)) := by
  obtain ⟨r, hr⟩ := contains_iff.1 hx
  rw [listing, h.view?_eq, hr]
  show (r.viewOver _).listing level = _
  rw [r.listing_viewOver, h.named hr, flatMap_listing]

/-- What is listed for a record is below it, and on a lower level unless it is the record. -/
theorem mem_listing {x y : RecordId} (hx : t.contains x = true) {level n : Nat}
    (hy : (y, n) ∈ t.listing level x) : t.Reaches x y ∧ level ≤ n ∧ (y ≠ x → level < n) := by
  refine h.induction_down (P := fun z => ∀ level, (y, n) ∈ t.listing level z →
    t.Reaches z y ∧ level ≤ n ∧ (y ≠ z → level < n)) ?_ hx level hy
  intro z hz ih level hy
  rw [h.listing_eq hz] at hy
  rcases List.mem_cons.1 hy with heq | hbelow
  · cases heq
    exact ⟨.refl, Nat.le_refl _, fun hne => absurd rfl hne⟩
  · obtain ⟨c, hc, hyc⟩ := List.mem_flatMap.1 hbelow
    obtain ⟨hreach, hle, -⟩ := ih c hc (level + 1) hyc
    exact ⟨.head hc hreach, by omega, fun _ => by omega⟩

/-- With the record all that is below it goes down by a level. -/
theorem listing_succ {x : RecordId} (hx : t.contains x = true) (level : Nat) :
    t.listing (level + 1) x = (t.listing level x).map fun e => (e.1, e.2 + 1) := by
  refine h.induction_down (P := fun y => ∀ level,
    t.listing (level + 1) y = (t.listing level y).map fun e => (e.1, e.2 + 1)) ?_ hx level
  intro y hy ih level
  rw [h.listing_eq hy, h.listing_eq hy, List.map_cons, List.map_flatMap]
  exact congrArg _ (List.flatMap_congr fun c hc => ih c hc (level + 1))

end WellFormed

/-- What becomes of an entry of a listing when a record is removed: its own goes, and the entry of
what is below it rises by a level. -/
def risen (t : Tree) (x : RecordId) (e : RecordId × Nat) : Option (RecordId × Nat) :=
  if e.1 = x then none else some (e.1, if t.isWithin e.1 x then e.2 - 1 else e.2)

theorem risen_eq_some_iff {t : Tree} {x y z : RecordId} {m n : Nat} :
    t.risen x (z, m) = some (y, n) ↔
      z = y ∧ y ≠ x ∧ n = if t.isWithin y x then m - 1 else m := by
  unfold risen
  split
  · next heq =>
    refine ⟨nofun, ?_⟩
    rintro ⟨rfl, hne, -⟩
    exact absurd heq hne
  · next hne =>
    rw [Option.some.injEq, Prod.mk.injEq]
    constructor
    · rintro ⟨rfl, rfl⟩
      exact ⟨rfl, hne, rfl⟩
    · rintro ⟨rfl, -, rfl⟩
      exact ⟨rfl, rfl⟩

theorem map_filterMap_risen (t : Tree) (x : RecordId) (es : List (RecordId × Nat)) :
    (es.filterMap (t.risen x)).map (·.1) = (es.map (·.1)).filter (· != x) := by
  induction es with
  | nil => rfl
  | cons e rest ih =>
      by_cases he : e.1 = x
      · have hnone : t.risen x e = none := if_pos he
        rw [List.filterMap_cons_none hnone, ih, List.map_cons, List.filter_cons_of_neg (by simp [he])]
      · have hsome : t.risen x e = some (e.1, _) := if_neg he
        rw [List.filterMap_cons_some hsome, List.map_cons, ih, List.map_cons,
          List.filter_cons_of_pos (by simp [he])]

/-! ## Removing -/

section Remove

variable {l : Library} {t : Tree} (h : t.WellFormed) {x : RecordId} (hc : t.CanRemove x)

include h hc

/-- What is below the record that is removed is seen as before. -/
theorem view?_remove_of_below {y : RecordId} (hy : t.Reaches x y) (hne : y ≠ x) :
    (t.remove l x).tree.view? y = t.view? y := by
  obtain ⟨p, gone, r, hp, hx, hr, hid⟩ := h.exists_parent_record hc
  have hlinked := linked_removed (l := l) h.toLinked hp hx hr hid hc.ne_root
  have hmem : x ∈ t.children p := h.parent_iff.1 hp
  -- Neither the record nor its parent is below `y`.
  have hother : ∀ z, t.Reaches y z → z ≠ x ∧ z ≠ p := by
    intro z hz
    refine ⟨?_, ?_⟩ <;> rintro rfl
    · exact hne (h.reaches_antisymm hz hy)
    · exact h.not_reaches_of_mem hmem (hy.trans hz)
  refine h.view?_congr hlinked (fun z hz => ?_) fun z hz => ?_
  · obtain ⟨hzx, hzp⟩ := hother z hz
    rw [find?_removed h.toLinked hp hx hr hid hc.ne_root, if_neg hzx, if_neg hzp]
  · obtain ⟨hzx, hzp⟩ := hother z hz
    rw [children_removed h.toLinked hp hx hr hid hc.ne_root, if_neg hzx, if_neg hzp]

/-- What is below the record that is removed is listed a level higher. -/
theorem listing_remove_of_mem {c : RecordId} (hcx : c ∈ t.children x) (level : Nat) :
    (t.remove l x).tree.listing level c = (t.listing (level + 1) c).filterMap (t.risen x) := by
  have hne : c ≠ x := h.ne_of_mem hcx
  have hmem := h.listed hcx
  have hrisen : ∀ e ∈ t.listing level c, t.risen x (e.1, e.2 + 1) = some e := by
    rintro ⟨y, n⟩ he
    have hy := (h.mem_listing hmem he).1
    have hwithin : t.isWithin y x = true := h.isWithin_iff.2 (.head hcx hy)
    have hyx : y ≠ x := by
      rintro rfl
      exact h.not_reaches_of_mem hcx hy
    rw [risen, if_neg hyx, if_pos hwithin]
    rfl
  rw [listing, view?_remove_of_below h hc (.single hcx) hne, h.listing_succ hmem,
    List.filterMap_map]
  exact ((List.filterMap_congr hrisen).trans List.filterMap_some).symm

/-- What is not below the record that is removed is listed as before, but for that record and the
levels below it. -/
theorem listing_remove {y : RecordId} (hy : t.contains y = true) (hxy : ¬ t.Reaches x y)
    (level : Nat) :
    (t.remove l x).tree.listing level y = (t.listing level y).filterMap (t.risen x) := by
  obtain ⟨p, gone, r, hp, hx, hr, hid⟩ := h.exists_parent_record hc
  have hmem : x ∈ t.children p := h.parent_iff.1 hp
  have hremoved := h.remove l x
  refine h.induction_down (P := fun y => ¬ t.Reaches x y → ∀ level,
    (t.remove l x).tree.listing level y = (t.listing level y).filterMap (t.risen x)) ?_ hy hxy level
  intro y hy ih hxy level
  have hyx : y ≠ x := fun heq => hxy (heq ▸ .refl)
  have hself : t.risen x (y, level) = some (y, level) := by
    refine risen_eq_some_iff.2 ⟨rfl, hyx, ?_⟩
    rw [if_neg fun hwithin => hxy (h.isWithin_iff.1 hwithin)]
  have hothers : ∀ cs : List RecordId, (∀ c ∈ cs, c ∈ t.children y ∧ c ≠ x) →
      cs.flatMap ((t.remove l x).tree.listing (level + 1)) =
        (cs.flatMap (t.listing (level + 1))).filterMap (t.risen x) := by
    intro cs hcs
    rw [List.filterMap_flatMap]
    refine List.flatMap_congr fun c hcc => ?_
    obtain ⟨hcy, hne⟩ := hcs c hcc
    exact ih c hcy (fun hxc => hxy (h.reaches_of_mem hxc hcy hne)) (level + 1)
  rw [hremoved.listing_eq
      ((contains_removed h.toLinked hp hx hr hid hc.ne_root y).2 ⟨hyx, hy⟩), h.listing_eq hy,
    List.filterMap_cons_some hself, children_removed h.toLinked hp hx hr hid hc.ne_root,
    if_neg hyx]
  congr 1
  by_cases hyp : y = p
  · -- The children stand where the record stood, and are listed there a level higher.
    subst hyp
    obtain ⟨left, right, hsplit, hleft⟩ := List.eq_append_cons_of_mem hmem
    have hright : x ∉ right := by
      have hnodup := h.nodup y
      rw [hsplit] at hnodup
      exact (List.nodup_cons.1 (List.nodup_append.1 hnodup).2.1).1
    have hdropped : t.risen x (x, level + 1) = none := if_pos rfl
    have hchildren : (t.children x).flatMap ((t.remove l x).tree.listing (level + 1)) =
        (t.listing (level + 1) x).filterMap (t.risen x) := by
      rw [h.listing_eq hc.mem, List.filterMap_cons_none hdropped, List.filterMap_flatMap]
      exact List.flatMap_congr fun c hcx => listing_remove_of_mem h hc hcx (level + 1)
    rw [if_pos rfl, hsplit, splice_eq hleft, List.flatMap_append, List.flatMap_append,
      List.flatMap_append, List.flatMap_cons, List.filterMap_append, List.filterMap_append,
      hchildren, hothers left, hothers right, List.append_assoc]
    · intro c hcr
      exact ⟨by simp [hsplit, hcr], fun heq => hright (heq ▸ hcr)⟩
    · intro c hcl
      exact ⟨by simp [hsplit, hcl], fun heq => hleft (heq ▸ hcl)⟩
  · rw [if_neg hyp]
    exact hothers _ fun c hcy => ⟨hcy, fun heq => hyp (h.parent_unique (heq ▸ hcy) hmem)⟩

theorem not_reaches_root : ¬ t.Reaches x rootId := fun hx =>
  hc.ne_root (h.reaches_antisymm hx (h.reached hc.mem))

/-- An entry of the listing of all records comes from one before. -/
theorem mem_listing_remove {y : RecordId} {n : Nat} :
    (y, n) ∈ (t.remove l x).tree.listing 0 rootId ↔
      ∃ m, (y, m) ∈ t.listing 0 rootId ∧ y ≠ x ∧ n = if t.isWithin y x then m - 1 else m := by
  rw [listing_remove h hc h.root_mem (not_reaches_root h hc), List.mem_filterMap]
  constructor
  · rintro ⟨⟨z, m⟩, hz, hrisen⟩
    obtain ⟨rfl, hyx, hn⟩ := risen_eq_some_iff.1 hrisen
    exact ⟨m, hz, hyx, hn⟩
  · rintro ⟨m, hy, hyx, hn⟩
    exact ⟨(y, m), hy, risen_eq_some_iff.2 ⟨rfl, hyx, hn⟩⟩

/-- What was below the record is a level higher. -/
theorem mem_listing_remove_of_reaches {y : RecordId} (hyx : y ≠ x) (hxy : t.Reaches x y) {n : Nat} :
    (y, n) ∈ (t.remove l x).tree.listing 0 rootId ↔ (y, n + 1) ∈ t.listing 0 rootId := by
  -- Only the root is on the level of the root, and it is not below the record.
  have hpos : ∀ {m}, (y, m) ∈ t.listing 0 rootId → 0 < m := fun hm =>
    (h.mem_listing h.root_mem hm).2.2 fun heq => not_reaches_root h hc (heq ▸ hxy)
  simp only [mem_listing_remove h hc, if_pos (h.isWithin_iff.2 hxy)]
  constructor
  · rintro ⟨m, hm, -, rfl⟩
    rwa [Nat.sub_add_cancel (hpos hm)]
  · intro hn
    exact ⟨n + 1, hn, hyx, rfl⟩

/-- What is not below the record is on the same level. -/
theorem mem_listing_remove_of_not_reaches {y : RecordId} (hxy : ¬ t.Reaches x y) {n : Nat} :
    (y, n) ∈ (t.remove l x).tree.listing 0 rootId ↔ (y, n) ∈ t.listing 0 rootId := by
  have hyx : y ≠ x := fun heq => hxy (heq ▸ .refl)
  have hwithin : ¬ t.isWithin y x = true := fun hyw => hxy (h.isWithin_iff.1 hyw)
  simp only [mem_listing_remove h hc, if_neg hwithin]
  constructor
  · rintro ⟨m, hm, -, rfl⟩
    exact hm
  · intro hn
    exact ⟨n, hn, hyx, rfl⟩

/-- What becomes of each record: the parent lists the children in the place of the record, and its
formula may have followed. -/
theorem exists_split_remove : ∃ p r gone left right info, t.parent? x = some p ∧
    t.find? p = some r ∧ t.find? x = some gone ∧ r.children = left ++ x :: right ∧
    (t.remove l x).tree.find? p =
      some { r with children := left ++ gone.children ++ right, aggregation? := info } ∧
    (t.remove l x).tree.find? x = none ∧
    ∀ q, q ≠ x → q ≠ p → (t.remove l x).tree.find? q = t.find? q := by
  obtain ⟨p, gone, r, hp, hx, hr, hid⟩ := h.exists_parent_record hc
  have hmem : x ∈ t.children p := h.parent_iff.1 hp
  have hpx : p ≠ x := (h.ne_of_mem hmem).symm
  have hfind := find?_removed (l := l) h.toLinked hp hx hr hid hc.ne_root
  rw [children_of_find? hr] at hmem
  obtain ⟨left, right, hsplit, hleft⟩ := List.eq_append_cons_of_mem hmem
  obtain ⟨info, hfollowing⟩ := (r.splicing x gone.children).exists_following l gone
  refine ⟨p, r, gone, left, right, info, hp, hr, hx, hsplit, ?_, ?_, fun q hqx hqp => ?_⟩
  · rw [hfind, if_neg hpx, if_pos rfl, hfollowing, Record.splicing, hsplit, splice_eq hleft]
  · rw [hfind, if_pos rfl]
  · rw [hfind, if_neg hqx, if_neg hqp]

end Remove

end Tree

namespace Editor

/-- In every tree that an editor reaches, after a record other than the root was removed the records
are seen in the order before, without it; what was below it is a level higher, and all else is on
its level.  The children stand in the place of the record, and but for that list and perhaps for the
aggregation of the parent all other records are as before. -/
theorem Reached.remove_splices {e : Editor} (h : e.Reached) {x : RecordId}
    (hx : e.tree.contains x = true) (hne : x ≠ rootId) :
    let after := (e.apply (.remove x)).1.tree
    (∃ v v', e.tree.view? rootId = some v ∧ after.view? rootId = some v' ∧
      v'.ids = v.ids.filter (· != x) ∧
      (∀ y n, y ≠ x → e.tree.Reaches x y →
        ((y, n) ∈ v'.listing 0 ↔ (y, n + 1) ∈ v.listing 0)) ∧
      ∀ y n, ¬ e.tree.Reaches x y → ((y, n) ∈ v'.listing 0 ↔ (y, n) ∈ v.listing 0)) ∧
    ∃ p r gone left right info, e.tree.parent? x = some p ∧ e.tree.find? p = some r ∧
      e.tree.find? x = some gone ∧ r.children = left ++ x :: right ∧
      after.find? p =
        some { r with children := left ++ gone.children ++ right, aggregation? := info } ∧
      after.find? x = none ∧ ∀ q, q ≠ x → q ≠ p → after.find? q = e.tree.find? q := by
  have hw := h.wellFormed
  have hc : e.tree.CanRemove x := ⟨hx, hne⟩
  rw [tree_apply, Tree.apply]
  intro after
  obtain ⟨v, hv⟩ := hw.exists_view? hw.root_mem
  obtain ⟨v', hv'⟩ := (hw.remove e.library x).exists_view? (hw.remove e.library x).root_mem
  have hlisting : e.tree.listing 0 rootId = v.listing 0 := by rw [Tree.listing, hv]; rfl
  have hlisting' : after.listing 0 rootId = v'.listing 0 := by rw [Tree.listing, hv']; rfl
  refine ⟨⟨v, v', hv, hv', ?_, fun y n hyx hxy => ?_, fun y n hxy => ?_⟩,
    Tree.exists_split_remove hw hc⟩
  · rw [View.ids, View.ids, ← hlisting, ← hlisting', Tree.listing_remove hw hc hw.root_mem
      (Tree.not_reaches_root hw hc), Tree.map_filterMap_risen]
  · rw [← hlisting, ← hlisting']
    exact Tree.mem_listing_remove_of_reaches hw hc hyx hxy
  · rw [← hlisting, ← hlisting']
    exact Tree.mem_listing_remove_of_not_reaches hw hc hxy

/-- The second of three columns goes, with two below it of which one has a column of its own. -/
theorem Reached.remove_splices_middle :
    let e := ((ofTree .empty (.alone "t")).apply (.batch [.add 0 (.column 1 "a") none,
      .add 0 (.column 2 "b") none, .add 0 (.column 3 "c") none, .add 2 (.column 4 "d") none,
      .add 2 (.column 5 "e") none, .add 4 (.column 6 "f") none])).1
    let after := (e.apply (.remove 2)).1.tree
    e.Reached ∧ e.tree.contains 2 = true ∧ (2 : RecordId) ≠ rootId ∧
      ∃ v v', e.tree.view? rootId = some v ∧ after.view? rootId = some v' ∧
        v.listing 0 = [(0, 0), (1, 1), (2, 1), (4, 2), (6, 3), (5, 2), (3, 1)] ∧
        v'.ids = [0, 1, 4, 6, 5, 3] := by
  intro e after
  have h : e.Reached := .apply _ (.alone .empty "t")
  have hx : e.tree.contains 2 = true := rfl
  have hne : (2 : RecordId) ≠ rootId := by decide
  obtain ⟨⟨v, v', hv, hv', hids, -⟩, -⟩ := Reached.remove_splices h hx hne
  have hlisting : v.listing 0 = [(0, 0), (1, 1), (2, 1), (4, 2), (6, 3), (5, 2), (3, 1)] := by
    have hall : e.tree.listing 0 rootId =
        [(0, 0), (1, 1), (2, 1), (4, 2), (6, 3), (5, 2), (3, 1)] := rfl
    rwa [Tree.listing, hv] at hall
  refine ⟨h, hx, hne, v, v', hv, hv', hlisting, ?_⟩
  rw [hids, View.ids, hlisting]
  decide

end Editor

end ColumnTree.Outline
