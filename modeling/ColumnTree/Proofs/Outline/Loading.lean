/-
# What loading checks

Loading works through the links of the records one after the other, counts the records on the walk
down from the root, and walks up from every record if the count is short.  It succeeds exactly on the
records of linked trees whose root is of kind root, and then the index that it builds is the one of the
tree (`parentsOf_eq_ok_iff`).
-/
import ColumnTree.Proofs.Except
import ColumnTree.Proofs.Outline.WalkDown

namespace ColumnTree.Outline

namespace Tree

/-! ## Entering one after the other

Records are entered under their numbers and links under their children.  Either step fails on what is
not fit to be entered, and on a number that has an entry already. -/

section Entering

variable {α β : Type} {step : IdMap β → α → Except LoadFault (IdMap β)} {ok : α → Prop}
  {key : α → RecordId} {value : α → β} {m m' : IdMap β} {a : α} {as : List α}

/-- May things be entered one after the other? -/
structure Enterable (ok : α → Prop) (key : α → RecordId) (m : IdMap β) (as : List α) : Prop where
  ok : ∀ a ∈ as, ok a
  fresh : ∀ a ∈ as, m.find? (key a) = none
  nodup : (as.map key).Nodup

theorem enterable_cons_iff (b : β) : Enterable ok key m (a :: as) ↔
    (ok a ∧ m.find? (key a) = none) ∧ Enterable ok key (m.insert (key a) b) as := by
  constructor
  · rintro ⟨hok, hfresh, hnodup⟩
    simp only [List.forall_mem_cons] at hok hfresh
    obtain ⟨ha, has⟩ := List.nodup_cons.1 hnodup
    refine ⟨⟨hok.1, hfresh.1⟩, hok.2, fun k hk => ?_, has⟩
    rw [IdMap.find?_insert, if_neg, hfresh.2 k hk]
    exact fun heq => ha (List.mem_map.2 ⟨k, hk, heq⟩)
  · rintro ⟨⟨hok, hfresh⟩, h⟩
    have hk : ∀ k ∈ as, key k ≠ key a ∧ m.find? (key k) = none := fun k hk => by
      have := h.fresh k hk
      rw [IdMap.find?_insert] at this
      split at this
      · cases this
      · next hne => exact ⟨hne, this⟩
    refine ⟨List.forall_mem_cons.2 ⟨hok, h.ok⟩,
      List.forall_mem_cons.2 ⟨hfresh, fun k hks => (hk k hks).2⟩,
      List.nodup_cons.2 ⟨fun ha => ?_, h.nodup⟩⟩
    obtain ⟨k, hks, heq⟩ := List.mem_map.1 ha
    exact (hk k hks).1 heq

/-- The steps succeed exactly if all may be entered, and then what was entered is there besides what
was there before. -/
theorem foldlM_eq_ok_iff (hstep : ∀ m m' a, step m a = .ok m' ↔
      (ok a ∧ m.find? (key a) = none) ∧ m' = m.insert (key a) (value a)) :
    as.foldlM step m = .ok m' ↔ Enterable ok key m as ∧
      ∀ k b, m'.find? k = some b ↔ (∃ a ∈ as, key a = k ∧ value a = b) ∨ m.find? k = some b := by
  induction as generalizing m with
  | nil =>
      constructor
      · intro h
        obtain rfl := Except.ok.inj h
        exact ⟨⟨by simp, by simp, by simp⟩, by simp⟩
      · rintro ⟨-, h⟩
        have heq : m = m' := IdMap.ext_find? fun k => by
          ext b
          simpa using (h k b).symm
        rw [heq]
        rfl
  | cons a as ih =>
      have hfind : m.find? (key a) = none → ∀ k b,
          ((∃ x ∈ as, key x = k ∧ value x = b) ∨ (m.insert (key a) (value a)).find? k = some b ↔
            (∃ x ∈ a :: as, key x = k ∧ value x = b) ∨ m.find? k = some b) := by
        intro hfresh k b
        rw [IdMap.find?_insert, List.exists_mem_cons_iff]
        by_cases hk : k = key a
        · subst hk
          simp [hfresh, or_comm]
        · simp [hk, Ne.symm hk]
      rw [List.foldlM_cons, enterable_cons_iff (value a), bind_eq_ok_iff]
      constructor
      · rintro ⟨m₁, hm₁, hrest⟩
        obtain ⟨hok, rfl⟩ := (hstep ..).1 hm₁
        obtain ⟨hrest, hm'⟩ := ih.1 hrest
        exact ⟨⟨hok, hrest⟩, fun k b => (hm' k b).trans (hfind hok.2 k b)⟩
      · rintro ⟨⟨hok, hrest⟩, hm'⟩
        exact ⟨_, (hstep ..).2 ⟨hok, rfl⟩,
          ih.2 ⟨hrest, fun k b => (hm' k b).trans (hfind hok.2 k b).symm⟩⟩

theorem exists_foldlM_eq_ok (hstep : ∀ m m' a, step m a = .ok m' ↔
      (ok a ∧ m.find? (key a) = none) ∧ m' = m.insert (key a) (value a))
    (h : Enterable ok key m as) : ∃ m', as.foldlM step m = .ok m' := by
  induction as generalizing m with
  | nil => exact ⟨m, rfl⟩
  | cons a as ih =>
      obtain ⟨hok, hrest⟩ := (enterable_cons_iff (value a)).1 h
      obtain ⟨m', hm'⟩ := ih hrest
      refine ⟨m', ?_⟩
      rw [List.foldlM_cons, bind_eq_ok_iff]
      exact ⟨_, (hstep ..).2 ⟨hok, rfl⟩, hm'⟩

end Entering

/-! ## Links -/

theorem mem_links {t : Tree} {p c : RecordId} : (p, c) ∈ links t.records ↔ c ∈ t.children p := by
  simp only [links, List.mem_flatMap, List.mem_map, Prod.mk.injEq]
  constructor
  · rintro ⟨⟨q, r⟩, he, d, hd, rfl, rfl⟩
    rwa [children_of_find? (t.records.find?_eq_some_iff.2 he)]
  · intro hc
    obtain ⟨r, hr⟩ := contains_iff.1 (contains_of_mem_children hc)
    rw [children_of_find? hr] at hc
    exact ⟨(p, r), t.records.find?_eq_some_iff.1 hr, c, hc, rfl, rfl⟩

theorem map_snd_links (records : IdMap Record) :
    (links records).map (·.2) = records.entries.flatMap fun e => e.2.children := by
  simp [links, List.map_flatMap, Function.comp_def]

/-- No child stands twice in the links exactly if none stands twice in one list or in two. -/
theorem nodup_links_iff {t : Tree} :
    ((links t.records).map (·.2)).Nodup ↔
      (∀ p, (t.children p).Nodup) ∧ ∀ p q c, c ∈ t.children p → c ∈ t.children q → p = q := by
  have hentry : ∀ {e}, e ∈ t.records.entries → t.children e.1 = e.2.children := fun he =>
    children_of_find? (t.records.find?_eq_some_iff.2 he)
  constructor
  · intro hnodup
    refine ⟨fun p => ?_, fun p q c hp hq => ?_⟩
    · rw [map_snd_links, List.nodup_flatMap] at hnodup
      cases hr : t.find? p with
      | none => rw [children_of_find?_none hr]; exact List.nodup_nil
      | some r =>
          rw [children_of_find? hr]
          exact hnodup.1 (p, r) (t.records.find?_eq_some_iff.1 hr)
    · have := List.inj_on_of_nodup_map hnodup (mem_links.2 hp) (mem_links.2 hq) rfl
      exact congrArg Prod.fst this
  · rintro ⟨hnodup, hunique⟩
    rw [map_snd_links, List.nodup_flatMap]
    refine ⟨fun e he => hentry he ▸ hnodup e.1, ?_⟩
    refine t.records.sorted.imp_of_mem fun {e e'} he he' hlt c hc hc' => ?_
    have heq := hunique e.1 e'.1 c (hentry he ▸ hc) (hentry he' ▸ hc')
    exact UInt64.lt_irrefl _ (heq ▸ hlt)

theorem link_eq_ok_iff (records : IdMap Record) (m m' : IdMap RecordId)
    (l : RecordId × RecordId) : link records m l = .ok m' ↔
      ((records.contains l.2 = true ∧ l.2 ≠ rootId) ∧ m.find? l.2 = none) ∧
        m' = m.insert l.2 l.1 := by
  unfold link
  cases records.contains l.2 with
  | false => simp
  | true =>
      by_cases hroot : l.2 = rootId
      · simp [hroot]
      · cases m.find? l.2 with
        | none => simp [hroot, eq_comm]
        | some first => simp [hroot]

/-- Entering links succeeds exactly if they may be entered, and gives the index that holds them. -/
theorem foldlM_link_eq_ok_iff {records : IdMap Record} {m : IdMap RecordId}
    {ls : List (RecordId × RecordId)} : ls.foldlM (link records) .empty = .ok m ↔
      Enterable (fun l => records.contains l.2 = true ∧ l.2 ≠ rootId) (·.2)
        (.empty : IdMap RecordId) ls ∧ ∀ c p, m.find? c = some p ↔ (p, c) ∈ ls := by
  rw [foldlM_eq_ok_iff (link_eq_ok_iff records)]
  simp

/-- The links of a tree may be entered exactly if it is linked but for being within reach. -/
theorem enterable_links_iff {t : Tree} :
    Enterable (fun l => t.records.contains l.2 = true ∧ l.2 ≠ rootId) (·.2)
      (.empty : IdMap RecordId) (links t.records) ↔ t.Branching := by
  constructor
  · intro h
    obtain ⟨hnodup, hunique⟩ := nodup_links_iff.1 h.nodup
    exact ⟨fun hc => (h.ok _ (mem_links.2 hc)).1, fun p hp => (h.ok _ (mem_links.2 hp)).2 rfl,
      hnodup, fun hp hq => hunique _ _ _ hp hq⟩
  · intro h
    refine ⟨?_, fun _ _ => rfl, nodup_links_iff.2 ⟨h.nodup, fun p q c hp hq => h.unique hp hq⟩⟩
    rintro ⟨p, c⟩ hl
    exact ⟨h.listed (mem_links.1 hl), fun heq => h.root_unlisted p (heq ▸ mem_links.1 hl)⟩

/-! ## The ways up -/

theorem checkTop_eq_ok_iff {records : IdMap Record} {parents : IdMap RecordId} {id : RecordId} :
    checkTop records parents id = .ok () ↔
      top? parents (records.size + 1) id = some rootId := by
  unfold checkTop
  cases top? parents (records.size + 1) id with
  | none => simp
  | some top => by_cases ht : top = rootId <;> simp [ht]

theorem any_root_iff {t : Tree} : ((t.records.find? rootId).any fun r => r.kind = .root) = true ↔
    ∃ r, t.find? rootId = some r ∧ r.kind = .root := by
  simp [find?, Option.any_eq_true]

theorem parentsOf_eq_ok_iff_steps {records : IdMap Record} {parents : IdMap RecordId} :
    parentsOf records = .ok parents ↔
      ((records.find? rootId).any fun r => r.kind = .root) = true ∧
        (links records).foldlM (link records) .empty = .ok parents ∧
          (countDown records [rootId] 0 = some records.size ∨
            (records.keys.filter (· != rootId)).forM (checkTop records parents) = .ok ()) := by
  unfold parentsOf
  cases (records.find? rootId).any fun r => r.kind = .root with
  | false => simp [bind, Except.bind, throw, throwThe, MonadExceptOf.throw]
  | true =>
      show ((links records).foldlM (link records) .empty >>= fun m =>
        if countDown records [rootId] 0 != some records.size then
          (records.keys.filter (· != rootId)).forM (checkTop records m) >>= fun _ => pure m
        else pure m) = .ok parents ↔ _
      by_cases hcount : countDown records [rootId] 0 = some records.size
      · simp [hcount]
      · have hshort : (countDown records [rootId] 0 != some records.size) = true := by
          simpa using hcount
        simp only [hshort, if_true, bind_eq_ok_iff, pure_eq_ok_iff, hcount, false_or, true_and]
        constructor
        · rintro ⟨m, hm, _, hk, rfl⟩
          exact ⟨hm, hk⟩
        · rintro ⟨hm, hk⟩
          exact ⟨parents, hm, (), hk, rfl⟩

/-- Records pass the check exactly if they are those of a linked tree whose root is of kind root;
the index that is built is the one that the lists of children determine. -/
theorem parentsOf_eq_ok_iff {t : Tree} :
    parentsOf t.records = .ok t.parents ↔
      t.Linked ∧ ∃ r, t.find? rootId = some r ∧ r.kind = .root := by
  rw [parentsOf_eq_ok_iff_steps, foldlM_link_eq_ok_iff, forM_eq_ok_iff, enterable_links_iff]
  simp only [checkTop_eq_ok_iff, mem_links]
  rw [any_root_iff]
  constructor
  · rintro ⟨⟨r, hr, hkind⟩, ⟨hbranching, hparent⟩, htop⟩
    have hrootmem := contains_iff.2 ⟨r, hr⟩
    refine ⟨⟨hrootmem, hbranching.root_unlisted, hbranching.listed, hbranching.nodup,
      fun {c p} => hparent c p, fun {x} hx => ?_⟩, r, hr, hkind⟩
    rcases htop with hcount | htop
    · obtain ⟨n, hn, hiff⟩ := hbranching.exists_countDown hrootmem
      exact hiff.1 (Option.some.inj (hn.symm.trans hcount)) x hx
    · by_cases hne : x = rootId
      · rw [hne]
        exact .refl
      · have hkey := t.records.mem_keys_iff.2 (contains_iff.1 hx)
        have := htop x (List.mem_filter.2 ⟨hkey, by simpa using hne⟩)
        exact (climbs_iff_reaches fun {c p} => hparent c p).1 (climbs_of_top? this).2
  · rintro ⟨h, hr⟩
    obtain ⟨n, hn, hiff⟩ := h.branching.exists_countDown h.root_mem
    refine ⟨hr, ⟨h.branching, fun c p => h.parent_iff⟩, .inl ?_⟩
    rw [hn, hiff.2 fun x hx => h.reached hx]
    rfl

/-! ## Loading -/

theorem enter_eq_ok_iff (m m' : IdMap Record) (r : Record) : enter m r = .ok m' ↔
    ((r.kind = .root → r.id = rootId) ∧ m.find? r.id = none) ∧ m' = m.insert r.id r := by
  unfold enter
  by_cases hroot : r.kind = .root ∧ r.id ≠ rootId
  · simp [hroot]
  · rw [if_neg hroot]
    have hfit : r.kind = .root → r.id = rootId := fun hk => by
      by_contra hne
      exact hroot ⟨hk, hne⟩
    cases hr : m.find? r.id with
    | none =>
        rw [IdMap.contains, hr, if_neg (by decide), Except.ok.injEq, eq_comm]
        exact ⟨fun heq => ⟨⟨hfit, rfl⟩, heq⟩, fun h => h.2⟩
    | some r' => simp [IdMap.contains, hr]

/-- Entering records succeeds exactly if no two share a number and none but the root is of kind
root, and then they stand under their own numbers. -/
theorem foldlM_enter_eq_ok_iff {rs : List Record} {m : IdMap Record} :
    rs.foldlM enter .empty = .ok m ↔
      ((∀ r ∈ rs, r.kind = .root → r.id = rootId) ∧ (rs.map (·.id)).Nodup) ∧
        ∀ id r, m.find? id = some r ↔ r ∈ rs ∧ r.id = id := by
  rw [foldlM_eq_ok_iff enter_eq_ok_iff]
  have hfind : (∀ id r, m.find? id = some r ↔
      (∃ r' ∈ rs, r'.id = id ∧ r' = r) ∨ IdMap.empty.find? id = some r) ↔
        ∀ id r, m.find? id = some r ↔ r ∈ rs ∧ r.id = id := by
    refine forall_congr' fun id => forall_congr' fun r => ?_
    simp
  rw [hfind]
  exact and_congr_left' ⟨fun h => ⟨h.ok, h.nodup⟩, fun h => ⟨h.1, fun _ _ => rfl, h.2⟩⟩

theorem ofList_eq_ok_iff {rs : List Record} {t : Tree} : ofList rs = .ok t ↔
    rs.foldlM enter .empty = .ok t.records ∧ parentsOf t.records = .ok t.parents := by
  unfold ofList
  simp only [bind_eq_ok_iff, pure_eq_ok_iff]
  constructor
  · rintro ⟨records, hrecords, parents, hparents, rfl⟩
    exact ⟨hrecords, hparents⟩
  · rintro ⟨hrecords, hparents⟩
    exact ⟨_, hrecords, _, hparents, rfl⟩

/-- A tree that was loaded is well formed. -/
theorem WellFormed.of_ofList {rs : List Record} {t : Tree} (h : ofList rs = .ok t) :
    t.WellFormed := by
  obtain ⟨hrecords, hparents⟩ := ofList_eq_ok_iff.1 h
  obtain ⟨⟨hkind, -⟩, hfind⟩ := foldlM_enter_eq_ok_iff.1 hrecords
  obtain ⟨hlinked, r, hr, hroot⟩ := parentsOf_eq_ok_iff.1 hparents
  refine ⟨hlinked, fun {id r'} hr' => ((hfind id r').1 hr').2, fun {id r'} hr' => ⟨?_, ?_⟩⟩
  · intro hk
    obtain ⟨hmem, rfl⟩ := (hfind id r').1 hr'
    exact hkind r' hmem hk
  · rintro rfl
    rwa [Option.some.inj (hr'.symm.trans hr)]

/-- A root alone is well formed. -/
theorem WellFormed.alone (name : String) : (alone name).WellFormed := by
  have hfind : ∀ id, (Tree.alone name).find? id =
      if id = rootId then some (Record.root name) else none := fun id =>
    IdMap.find?_insert _ _ _ _
  have hchildren : ∀ id, (Tree.alone name).children id = [] := by
    intro id
    simp only [children, hfind]
    split <;> rfl
  refine ⟨⟨?_, ?_, ?_, ?_, ?_, ?_⟩, ?_, ?_⟩
  · exact contains_iff.2 ⟨_, hfind rootId⟩
  · intro p
    simp [hchildren]
  · intro p c hc
    simp [hchildren] at hc
  · intro p
    simp [hchildren]
  · intro c p
    rw [hchildren]
    simp [parent?, Tree.alone]
  · intro x hx
    obtain ⟨r, hr⟩ := contains_iff.1 hx
    rw [hfind] at hr
    split at hr
    · next heq => rw [heq]; exact .refl
    · cases hr
  · intro id r hr
    rw [hfind] at hr
    split at hr
    · next heq => obtain rfl := Option.some.inj hr; exact heq.symm
    · cases hr
  · intro id r hr
    rw [hfind] at hr
    split at hr
    · next heq => obtain rfl := Option.some.inj hr; exact ⟨fun _ => heq, fun _ => rfl⟩
    · cases hr

/-- The index of a well-formed tree is the one that its lists of children determine. -/
theorem WellFormed.parentsOf_eq {t : Tree} (h : t.WellFormed) :
    parentsOf t.records = .ok t.parents := by
  obtain ⟨r, hr⟩ := contains_iff.1 h.root_mem
  exact parentsOf_eq_ok_iff.2 ⟨h.toLinked, r, hr, (h.kind_iff hr).2 rfl⟩

theorem WellFormed.check_eq {t : Tree} (h : t.WellFormed) : t.check = .ok () := by
  unfold check
  rw [h.parentsOf_eq]
  rfl

end Tree

end ColumnTree.Outline
