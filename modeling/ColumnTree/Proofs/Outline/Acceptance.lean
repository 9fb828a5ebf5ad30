/-
# Which records are a tree

`IsTree` says of a list of records, without a tree or an index, that they are one: numbers differ, the
record numbered 0 is there and alone of kind root, each child that is named exists and is named once,
and every record is reached from the root.  Loading accepts a list exactly if this holds of it
(`exists_ofList_iff`), whatever the list.

Where records are entered, a list and the tree that holds it say the same in different words
(`Holds`); that the index of parents can be built, and what it says, is then a matter of the tree.
-/
import ColumnTree.Proofs.Outline.Loading

namespace ColumnTree.Outline

/-- A record of a list names a child. -/
def Names (rs : List Record) (p c : RecordId) : Prop :=
  ∃ r ∈ rs, r.id = p ∧ c ∈ r.children

/-- The records of a list are a tree. -/
structure IsTree (rs : List Record) : Prop where
  /-- Numbers differ. -/
  ids_nodup : (rs.map (·.id)).Nodup
  /-- There is a root. -/
  root_mem : ∃ r ∈ rs, r.id = rootId
  /-- The root is of kind root, and no other record is. -/
  kind_iff : ∀ r ∈ rs, (r.kind = .root ↔ r.id = rootId)
  /-- Children exist, and the root is nobody's child. -/
  child_mem : ∀ r ∈ rs, ∀ c ∈ r.children, c ≠ rootId ∧ ∃ r' ∈ rs, r'.id = c
  /-- No child is named twice, by one record or by two. -/
  children_nodup : (rs.flatMap (·.children)).Nodup
  /-- Every record is reached from the root. -/
  reached : ∀ r ∈ rs, Relation.ReflTransGen (Names rs) rootId r.id

namespace Tree

/-- A tree holds the records of a list under their numbers, and no others. -/
def Holds (t : Tree) (rs : List Record) : Prop :=
  ∀ id r, t.find? id = some r ↔ r ∈ rs ∧ r.id = id

namespace Holds

variable {t : Tree} {rs : List Record} (h : t.Holds rs)

include h

theorem contains_iff {x : RecordId} : t.contains x = true ↔ ∃ r ∈ rs, r.id = x := by
  rw [Tree.contains_iff]
  exact exists_congr fun r => h x r

theorem mem_children_iff {p c : RecordId} : c ∈ t.children p ↔ Names rs p c := by
  constructor
  · intro hc
    obtain ⟨r, hr⟩ := Tree.contains_iff.1 (contains_of_mem_children hc)
    obtain ⟨hmem, hid⟩ := (h p r).1 hr
    exact ⟨r, hmem, hid, children_of_find? hr ▸ hc⟩
  · rintro ⟨r, hmem, hid, hc⟩
    rwa [children_of_find? ((h p r).2 ⟨hmem, hid⟩)]

theorem reaches_iff {a x : RecordId} :
    t.Reaches a x ↔ Relation.ReflTransGen (Names rs) a x := by
  have hlists : t.Lists = Names rs := by
    funext p c
    exact propext h.mem_children_iff
  rw [Reaches, hlists]

theorem mem_toList_iff {r : Record} : r ∈ t.toList ↔ r ∈ rs := by
  have hentry : ∀ id, (id, r) ∈ t.records.entries ↔ r ∈ rs ∧ r.id = id := fun id =>
    t.records.find?_eq_some_iff.symm.trans (h id r)
  simp [toList, IdMap.values, hentry]

/-- The list of the tree is in the strict order of numbers. -/
theorem sorted_toList : t.toList.Pairwise fun r r' => r.id < r'.id := by
  refine List.pairwise_map.2 (t.records.sorted.imp_of_mem fun {e e'} he he' hlt => ?_)
  rw [((h e.1 e.2).1 (t.records.find?_eq_some_iff.2 he)).2,
    ((h e'.1 e'.2).1 (t.records.find?_eq_some_iff.2 he')).2]
  exact hlt

theorem toList_perm (hids : (rs.map (·.id)).Nodup) : t.toList.Perm rs := by
  have hnodup : t.toList.Nodup := h.sorted_toList.imp fun {r r'} hlt heq => by
    rw [heq] at hlt
    exact UInt64.lt_irrefl _ hlt
  exact (List.perm_ext_iff_of_nodup hnodup hids.of_map).2 fun _ => h.mem_toList_iff

/-- No child is named twice in the list exactly if none stands twice in the tree. -/
theorem children_nodup_iff (hids : (rs.map (·.id)).Nodup) :
    (rs.flatMap (·.children)).Nodup ↔
      (∀ p, (t.children p).Nodup) ∧ ∀ p q c, c ∈ t.children p → c ∈ t.children q → p = q := by
  have hlinks : (links t.records).map (·.2) = t.toList.flatMap (·.children) := by
    rw [map_snd_links, toList, IdMap.values, List.flatMap_map]
  rw [← nodup_links_iff, hlinks]
  exact ((h.toList_perm hids).flatMap_right _).symm.nodup_iff

/-- Records whose numbers differ are a tree exactly if the tree that holds them is linked and its root
alone is of kind root. -/
theorem isTree_iff (hids : (rs.map (·.id)).Nodup)
    (hkind : ∀ r ∈ rs, r.kind = .root → r.id = rootId) : IsTree rs ↔
      t.Branching ∧ (∃ r, t.find? rootId = some r ∧ r.kind = .root) ∧
        ∀ x, t.contains x = true → t.Reaches rootId x := by
  constructor
  · intro hrs
    obtain ⟨hnodup, hunique⟩ := (h.children_nodup_iff hids).1 hrs.children_nodup
    refine ⟨⟨?_, ?_, hnodup, fun hp hq => hunique _ _ _ hp hq⟩, ?_, ?_⟩
    · intro p c hc
      obtain ⟨r, hr, -, hc⟩ := h.mem_children_iff.1 hc
      exact h.contains_iff.2 (hrs.child_mem r hr c hc).2
    · intro p hp
      obtain ⟨r, hr, -, hc⟩ := h.mem_children_iff.1 hp
      exact (hrs.child_mem r hr rootId hc).1 rfl
    · obtain ⟨r, hr, hid⟩ := hrs.root_mem
      exact ⟨r, (h rootId r).2 ⟨hr, hid⟩, (hrs.kind_iff r hr).2 hid⟩
    · intro x hx
      obtain ⟨r, hr, rfl⟩ := h.contains_iff.1 hx
      exact h.reaches_iff.2 (hrs.reached r hr)
  · rintro ⟨hbranching, ⟨r, hr, hroot⟩, hreached⟩
    obtain ⟨hmem, hid⟩ := (h rootId r).1 hr
    refine ⟨hids, ⟨r, hmem, hid⟩, fun r' hr' => ⟨hkind r' hr', fun hid' => ?_⟩, ?_, ?_, ?_⟩
    · rwa [Option.some.inj (((h rootId r').2 ⟨hr', hid'⟩).symm.trans hr)]
    · intro r' hr' c hc
      have hchild := h.mem_children_iff.2 ⟨r', hr', rfl, hc⟩
      exact ⟨fun heq => hbranching.root_unlisted _ (heq ▸ hchild),
        h.contains_iff.1 (hbranching.listed hchild)⟩
    · exact (h.children_nodup_iff hids).2
        ⟨hbranching.nodup, fun p q c hp hq => hbranching.unique hp hq⟩
    · intro r' hr'
      exact h.reaches_iff.1 (hreached _ (h.contains_iff.2 ⟨r', hr', rfl⟩))

end Holds

/-- An index of parents can be built exactly if the lists of children make one tree below a root of
kind root. -/
theorem exists_parentsOf_iff {t : Tree} : (∃ parents, parentsOf t.records = .ok parents) ↔
    t.Branching ∧ (∃ r, t.find? rootId = some r ∧ r.kind = .root) ∧
      ∀ x, t.contains x = true → t.Reaches rootId x := by
  constructor
  · rintro ⟨parents, hparents⟩
    obtain ⟨hlinked, hroot⟩ := (parentsOf_eq_ok_iff (t := ⟨t.records, parents⟩)).1 hparents
    exact ⟨⟨hlinked.listed, hlinked.root_unlisted, hlinked.nodup, hlinked.parent_unique⟩, hroot,
      fun _ hx => hlinked.reached hx⟩
  · rintro ⟨hbranching, ⟨r, hr, hkind⟩, hreached⟩
    obtain ⟨parents, hparents⟩ :=
      exists_foldlM_eq_ok (link_eq_ok_iff t.records) (enterable_links_iff.2 hbranching)
    have hparent := (foldlM_link_eq_ok_iff.1 hparents).2
    refine ⟨parents, (parentsOf_eq_ok_iff (t := ⟨t.records, parents⟩)).2 ⟨?_, r, hr, hkind⟩⟩
    exact ⟨Tree.contains_iff.2 ⟨r, hr⟩, hbranching.root_unlisted, hbranching.listed,
      hbranching.nodup, fun {c p} => (hparent c p).trans mem_links, fun {x} hx => hreached x hx⟩

/-- Once links are entered, the walk down that is made then ends. -/
theorem exists_countDown_of_links {records : IdMap Record} {parents : IdMap RecordId}
    (hroot : ((records.find? rootId).any fun r => r.kind = .root) = true)
    (hlinks : (links records).foldlM (link records) .empty = .ok parents) :
    ∃ n, countDown records [rootId] 0 = some n := by
  have hbranching : (Tree.mk records parents).Branching :=
    enterable_links_iff.1 (foldlM_link_eq_ok_iff.1 hlinks).1
  obtain ⟨r, hr, -⟩ := (any_root_iff (t := ⟨records, parents⟩)).1 hroot
  obtain ⟨n, hn, -⟩ := hbranching.exists_countDown (Tree.contains_iff.2 ⟨r, hr⟩)
  exact ⟨n, hn⟩

theorem exists_ofList_iff {rs : List Record} : (∃ t, ofList rs = .ok t) ↔ IsTree rs := by
  constructor
  · rintro ⟨t, ht⟩
    obtain ⟨hrecords, hparents⟩ := ofList_eq_ok_iff.1 ht
    obtain ⟨⟨hkind, hids⟩, hholds⟩ := foldlM_enter_eq_ok_iff.1 hrecords
    exact (Holds.isTree_iff hholds hids hkind).2 (exists_parentsOf_iff.1 ⟨_, hparents⟩)
  · intro hrs
    have hkind : ∀ r ∈ rs, r.kind = .root → r.id = rootId := fun r hr => (hrs.kind_iff r hr).1
    obtain ⟨records, hrecords⟩ :=
      exists_foldlM_eq_ok enter_eq_ok_iff
        ⟨hkind, fun _ _ => IdMap.find?_empty _, hrs.ids_nodup⟩
    have hholds : (Tree.mk records .empty).Holds rs := (foldlM_enter_eq_ok_iff.1 hrecords).2
    obtain ⟨parents, hparents⟩ :=
      exists_parentsOf_iff.2 ((hholds.isTree_iff hrs.ids_nodup hkind).1 hrs)
    exact ⟨⟨records, parents⟩, ofList_eq_ok_iff.2 ⟨hrecords, hparents⟩⟩

/-- A tree that was loaded holds the records that it was loaded from. -/
theorem holds_of_ofList {rs : List Record} {t : Tree} (h : ofList rs = .ok t) : t.Holds rs :=
  (foldlM_enter_eq_ok_iff.1 (ofList_eq_ok_iff.1 h).1).2

/-- Loading decides whether records are a tree.  The walk down, if it is made, ends.  A tree that was
loaded has in its index the one record that names each but the root, and nothing else; its list is that
of the records in the strict order of their numbers. -/
theorem ofList_decides_isTree (rs : List Record) :
    (∀ records parents, rs.foldlM enter .empty = .ok records →
      ((records.find? rootId).any fun r => r.kind = .root) = true →
        (links records).foldlM (link records) .empty = .ok parents →
          ∃ n, countDown records [rootId] 0 = some n) ∧
    ((∃ t, ofList rs = .ok t) ↔ IsTree rs) ∧
    ∀ t, ofList rs = .ok t →
      (∀ c p, t.parent? c = some p ↔ Names rs p c) ∧
      (∀ r ∈ rs, r.id ≠ rootId → ∃ p ∈ rs, t.parent? r.id = some p.id ∧
        r.id ∈ p.children ∧ ∀ q ∈ rs, r.id ∈ q.children → q = p) ∧
      (∀ c p, t.parent? c = some p → c ≠ rootId ∧ ∃ r ∈ rs, r.id = c) ∧
      t.toList.Perm rs ∧ t.toList.Pairwise fun r r' => r.id < r'.id := by
  refine ⟨fun _ _ _ => exists_countDown_of_links, exists_ofList_iff, fun t ht => ?_⟩
  have hrs := exists_ofList_iff.1 ⟨t, ht⟩
  have hholds := holds_of_ofList ht
  have hlinked := (WellFormed.of_ofList ht).toLinked
  have hparent : ∀ c p, t.parent? c = some p ↔ Names rs p c := fun c p =>
    hlinked.parent_iff.trans hholds.mem_children_iff
  refine ⟨hparent, fun r hr hne => ?_, fun c p hp => ?_, hholds.toList_perm hrs.ids_nodup,
    hholds.sorted_toList⟩
  · obtain ⟨p, hp⟩ := hlinked.exists_parent (hholds.contains_iff.2 ⟨r, hr, rfl⟩) hne
    obtain ⟨q, hq, rfl, hc⟩ := (hparent r.id p).1 hp
    refine ⟨q, hq, hp, hc, fun q' hq' hc' => ?_⟩
    have hid : q'.id = q.id :=
      Option.some.inj (((hparent r.id q'.id).2 ⟨q', hq', rfl, hc'⟩).symm.trans hp)
    exact List.inj_on_of_nodup_map hrs.ids_nodup hq' hq hid
  · obtain ⟨q, hq, -, hc⟩ := (hparent c p).1 hp
    exact hrs.child_mem q hq c hc

end Tree

end ColumnTree.Outline
