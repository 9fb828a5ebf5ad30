/-
# What a refusal says

Loading names a fault of the records that it refuses, and the fault is there: `LoadFault.Holds` says of
each fault, on the list alone, what it claims.  It holds of what is found while records or links are
entered (`holds_of_enter`, `holds_of_link`), since an entry that stands in the way was made by a record
or by a link further in front; and it holds of a record that is reported as out of reach.

Only of cycles it need not hold.  A way up that never ends hangs on a cycle
(`exists_cycle_of_top?_eq_none`), but it may come from below: the record that is reported has a cycle
above it, and is on one itself exactly if it has one below it too (`cycle_iff_exists_below`).
-/
import ColumnTree.Proofs.Outline.Acceptance
import Mathlib

namespace ColumnTree.Outline

/-- A record names another, itself or through others, and in one step at least. -/
def NamesBelow (rs : List Record) : RecordId → RecordId → Prop :=
  Relation.TransGen (Names rs)

/-- What a fault claims of the records that are refused for it. -/
def LoadFault.Holds (rs : List Record) : LoadFault → Prop
  | missingRoot => ¬ ∃ r ∈ rs, r.id = rootId ∧ r.kind = .root
  | extraRoot id => id ≠ rootId ∧ ∃ r ∈ rs, r.id = id ∧ r.kind = .root
  | duplicateId id => 2 ≤ (rs.map (·.id)).count id
  | danglingChild parent child => Names rs parent child ∧ ¬ ∃ r ∈ rs, r.id = child
  | rootHasParent id => Names rs id rootId
  | manyParents child first second =>
    if first = second then ∃ r ∈ rs, r.id = first ∧ 2 ≤ r.children.count child
    else Names rs first child ∧ Names rs second child
  | cycle id => NamesBelow rs id id
  | unreachable id => (∃ r ∈ rs, r.id = id) ∧ ¬ Relation.ReflTransGen (Names rs) rootId id

namespace Tree

/-! ## Ways up that never end -/

section Climbing

variable {m : IdMap RecordId} {x y z : RecordId}

/-- Of two ways up from one record the longer one goes on from the end of the shorter one. -/
theorem climbs_of_climbs {n k : Nat} (h : Climbs m n x y) (h' : Climbs m (n + k) x z) :
    Climbs m k y z := by
  induction h with
  | here => rwa [Nat.zero_add] at h'
  | up hp _ ih =>
      rw [Nat.add_right_comm] at h'
      cases h' with
      | up hp' hrest =>
          obtain rfl := Option.some.inj (hp.symm.trans hp')
          exact ih hrest

/-- A walk up that finds no end has come by a record after each of its steps. -/
theorem exists_climbs_of_top? {fuel : Nat} (h : top? m fuel x = none) :
    ∀ k ≤ fuel, ∃ y, Climbs m k x y := by
  induction fuel generalizing x with
  | zero =>
      intro k hk
      obtain rfl := Nat.le_zero.1 hk
      exact ⟨x, .here⟩
  | succ fuel ih =>
      intro k hk
      rw [top?] at h
      split at h
      · cases h
      · next p hp =>
        cases k with
        | zero => exact ⟨x, .here⟩
        | succ k =>
            obtain ⟨y, hy⟩ := ih h k (Nat.le_of_succ_le_succ hk)
            exact ⟨y, .up hp hy⟩

/-- A walk up with more steps than there are records it could come by has come by one of them
twice. -/
theorem exists_cycle_of_top?_eq_none {l : List RecordId} (hx : x ∈ l)
    (hl : ∀ c p, m.find? c = some p → p ∈ l) (h : top? m (l.length + 1) x = none) :
    ∃ c, (∃ n, Climbs m n x c) ∧ ∃ k, Climbs m (k + 1) c c := by
  choose! f hf using exists_climbs_of_top? h
  have hmem : ∀ {n : Nat} {y z : RecordId}, Climbs m n y z → y ∈ l → z ∈ l := by
    intro n y z hz
    induction hz with
    | here => exact id
    | up hp _ ih => exact fun _ => ih (hl _ _ hp)
  have hcard : l.toFinset.card < (Finset.range (l.length + 1)).card := by
    rw [Finset.card_range]
    exact Nat.lt_succ_of_le l.toFinset_card_le
  obtain ⟨i, hi, j, hj, hne, heq⟩ := Finset.exists_ne_map_eq_of_card_lt_of_maps_to hcard
    (f := f) fun k hk => List.mem_toFinset.2 (hmem (hf k (Finset.mem_range.1 hk).le) hx)
  -- The way between the two places leads from the record to itself.
  wlog hlt : i < j generalizing i j
  · exact this j hj i hi hne.symm heq.symm (Nat.lt_of_le_of_ne (Nat.not_lt.1 hlt) hne.symm)
  obtain ⟨k, rfl⟩ := Nat.exists_eq_add_of_lt hlt
  have hfirst := hf i (Finset.mem_range.1 hi).le
  refine ⟨f i, ⟨i, hfirst⟩, k, climbs_of_climbs hfirst ?_⟩
  rw [heq]
  exact hf _ (Finset.mem_range.1 hj).le

end Climbing

/-! ## Entering records -/

/-- What is found when a record is entered holds of the list that it stands in. -/
theorem holds_of_enter {before after : List Record} {r : Record} {m : IdMap Record} {f : LoadFault}
    (hbefore : before.foldlM enter .empty = .ok m) (h : enter m r = .error f) :
    f.Holds (before ++ r :: after) ∧ ∀ id, f ≠ .cycle id := by
  have hmem : r ∈ before ++ r :: after := List.mem_append_right _ (List.mem_cons_self ..)
  unfold enter at h
  split at h
  · next hroot =>
    obtain rfl := Except.error.inj h
    exact ⟨⟨hroot.2, r, hmem, rfl, hroot.1⟩, nofun⟩
  · split at h
    · next hcontains =>
      obtain rfl := Except.error.inj h
      -- The record that has the number already was entered further in front.
      obtain ⟨r', hr'⟩ := m.contains_iff.1 hcontains
      obtain ⟨hr', hid⟩ := ((foldlM_enter_eq_ok_iff.1 hbefore).2 r.id r').1 hr'
      have hfront : 0 < (before.map (·.id)).count r.id :=
        List.count_pos_iff.2 (List.mem_map.2 ⟨r', hr', hid⟩)
      refine ⟨?_, nofun⟩
      show 2 ≤ ((before ++ r :: after).map (·.id)).count r.id
      rw [List.map_append, List.map_cons, List.count_append, List.count_cons_self]
      omega
    · cases h

/-! ## Entering links -/

/-- A link stands among the links as often as the child stands in the list of the parent. -/
theorem count_links (t : Tree) (p c : RecordId) :
    (links t.records).count (p, c) = (t.children p).count c := by
  have hcount : ∀ {l : List (RecordId × Record)}, (l.Pairwise fun a b => a.1 < b.1) →
      (l.flatMap fun e => e.2.children.map (e.1, ·)).count (p, c) =
        ((l.lookup p).elim [] (·.children)).count c := by
    intro l hl
    induction l with
    | nil => rfl
    | cons e rest ih =>
        obtain ⟨he, hrest⟩ := List.pairwise_cons.1 hl
        rw [List.flatMap_cons, List.count_append, IdMap.lookup_cons_entry]
        by_cases hp : p = e.1
        · have hnone : (rest.flatMap fun e => e.2.children.map (e.1, ·)).count (p, c) = 0 := by
            refine List.count_eq_zero.2 fun hmem => ?_
            obtain ⟨e', he', hlink⟩ := List.mem_flatMap.1 hmem
            obtain ⟨d, -, heq⟩ := List.mem_map.1 hlink
            have := he e' he'
            rw [← hp, ← (Prod.mk.inj heq).1] at this
            exact UInt64.lt_irrefl _ this
          rw [if_pos hp, hnone, hp]
          exact List.count_map_of_injective _ _ (Prod.mk_right_injective e.1) c
        · have hnone : (e.2.children.map (e.1, ·)).count (p, c) = 0 := by
            refine List.count_eq_zero.2 fun hmem => ?_
            obtain ⟨d, -, heq⟩ := List.mem_map.1 hmem
            exact hp (Prod.mk.inj heq).1.symm
          rw [if_neg hp, hnone, Nat.zero_add, ih hrest]
  exact hcount t.records.sorted

section Holding

variable {t : Tree} {rs : List Record} (h : t.Holds rs)

include h

theorem Holds.mem_links_iff {l : RecordId × RecordId} :
    l ∈ links t.records ↔ Names rs l.1 l.2 :=
  mem_links.trans h.mem_children_iff

/-- What is found when a link is entered holds of the list of the records. -/
theorem Holds.holds_of_link {before after : List (RecordId × RecordId)} {l : RecordId × RecordId}
    {m : IdMap RecordId} {f : LoadFault} (hlinks : links t.records = before ++ l :: after)
    (hbefore : before.foldlM (link t.records) .empty = .ok m) (hf : link t.records m l = .error f) :
    f.Holds rs ∧ ∀ id, f ≠ .cycle id := by
  have hmem : l ∈ links t.records := by
    rw [hlinks]
    exact List.mem_append_right _ (List.mem_cons_self ..)
  have hnames := h.mem_links_iff.1 hmem
  unfold link at hf
  split at hf
  · next hcontains =>
    obtain rfl := Except.error.inj hf
    refine ⟨⟨hnames, fun hchild => ?_⟩, nofun⟩
    rw [show t.records.contains l.2 = true from h.contains_iff.2 hchild] at hcontains
    cases hcontains
  · split at hf
    · next hroot =>
      obtain rfl := Except.error.inj hf
      refine ⟨?_, nofun⟩
      show Names rs l.1 rootId
      rw [← hroot]
      exact hnames
    · split at hf
      · next first hfirst =>
        obtain rfl := Except.error.inj hf
        -- The link that has the child already was entered further in front.
        have hfront := ((foldlM_link_eq_ok_iff.1 hbefore).2 l.2 first).1 hfirst
        refine ⟨?_, nofun⟩
        show if first = l.1 then _ else _
        split
        · next heq =>
          obtain ⟨r, hr, hid, hc⟩ := hnames
          refine ⟨r, hr, hid.trans heq.symm, ?_⟩
          have hcount := count_links t l.1 l.2
          rw [children_of_find? ((h l.1 r).2 ⟨hr, hid⟩), hlinks, List.count_append,
            List.count_cons_self] at hcount
          have : 0 < before.count (l.1, l.2) := List.count_pos_iff.2 (heq ▸ hfront)
          omega
        · have hmem' : (first, l.2) ∈ links t.records := by
            rw [hlinks]
            exact List.mem_append_left _ hfront
          exact ⟨h.mem_links_iff.1 hmem', hnames⟩
      · cases hf

/-! ## Records out of reach -/

variable (hbranching : t.Branching)

include hbranching

/-- A record with a cycle above it is on one itself exactly if it has one below it too: the way up from
that one is the only one, and it comes by the record. -/
theorem Holds.cycle_iff_exists_below {x : RecordId} : NamesBelow rs x x ↔
    ∃ c, NamesBelow rs c c ∧ Relation.ReflTransGen (Names rs) x c := by
  constructor
  · intro hx
    exact ⟨x, hx, .refl⟩
  · rintro ⟨c, hc, hxc⟩
    induction hxc using Relation.ReflTransGen.head_induction_on with
    | refl => exact hc
    | @head x y hxy _ ih =>
        have hunique : ∀ {q}, Names rs q y → q = x := fun hq =>
          hbranching.unique (h.mem_children_iff.2 hq) (h.mem_children_iff.2 hxy)
        cases ih with
        | single hyy => exact .single (hunique hyy ▸ hxy)
        | tail hyq hq => exact .head hxy (hunique hq ▸ hyq)

/-- What is found on the way up from a record holds of it, but that a cycle may be further up. -/
theorem Holds.holds_of_checkTop (hparent : ∀ c p, t.parent? c = some p ↔ c ∈ t.children p) {x : RecordId}
    (hx : t.contains x = true) {f : LoadFault}
    (hf : checkTop t.records t.parents x = .error f) :
    ¬ Relation.ReflTransGen (Names rs) rootId x ∧ (f = .unreachable x ∨ f = .cycle x ∧
      ∃ c, NamesBelow rs c c ∧ Relation.ReflTransGen (Names rs) c x) := by
  have hroot : t.parent? rootId = none := by
    refine Option.eq_none_iff_forall_ne_some.2 fun p hp => ?_
    exact hbranching.root_unlisted p ((hparent _ _).1 hp)
  have hclimbs : ∀ {y a}, (∃ n, Climbs t.parents n y a) ↔ Relation.ReflTransGen (Names rs) a y :=
    (climbs_iff_reaches fun {c p} => hparent c p).trans h.reaches_iff
  unfold checkTop at hf
  split at hf
  · next hnone =>
    obtain rfl := Except.error.inj hf
    obtain ⟨c, ⟨n, hn⟩, k, hk⟩ := exists_cycle_of_top?_eq_none (l := t.records.keys)
      (t.records.mem_keys_iff.2 (Tree.contains_iff.1 hx))
      (fun c p hp => t.records.mem_keys_iff.2
        (Tree.contains_iff.1 (contains_of_mem_children ((hparent c p).1 hp))))
      (by rwa [t.records.length_keys])
    refine ⟨fun hreached => ?_, .inr ⟨rfl, c, ?_, hclimbs.1 ⟨n, hn⟩⟩⟩
    · -- The way up would end at the root, and so would that from the cycle.
      obtain ⟨m, hm⟩ := hclimbs.2 hreached
      obtain ⟨j, -, hj⟩ := hn.tail hm hroot
      have := hj.height_unique (hk.trans hj) hroot
      omega
    · cases hk with
      | up hp hrest =>
          exact .tail' (hclimbs.1 ⟨k, hrest⟩) (h.mem_children_iff.1 ((hparent _ _).1 hp))
  · next top htop =>
    split at hf
    · cases hf
    · next hne =>
      obtain rfl := Except.error.inj hf
      obtain ⟨hend, n, hn⟩ := climbs_of_top? htop
      refine ⟨fun hreached => hne ?_, .inl rfl⟩
      obtain ⟨m, hm⟩ := hclimbs.2 hreached
      obtain ⟨j, -, hj⟩ := hn.tail hm hroot
      cases hj with
      | here => rfl
      | up hp _ =>
          rw [hend] at hp
          cases hp

end Holding

/-! ## Loading -/

/-- Where an index of parents cannot be built. -/
theorem parentsOf_eq_error {records : IdMap Record} {f : LoadFault}
    (h : parentsOf records = .error f) :
    f = .missingRoot ∧ ¬ ((records.find? rootId).any fun r => r.kind = .root) = true ∨
      (links records).foldlM (link records) .empty = .error f ∨
      ∃ parents, (links records).foldlM (link records) .empty = .ok parents ∧
        ∃ id ∈ records.keys, checkTop records parents id = .error f := by
  unfold parentsOf at h
  by_cases hroot : ((records.find? rootId).any fun r => r.kind = .root) = true
  · rw [hroot] at h
    change ((links records).foldlM (link records) .empty >>= fun m =>
      if countDown records [rootId] 0 != some records.size then
        (records.keys.filter (· != rootId)).forM (checkTop records m) >>= fun _ => pure m
      else pure m) = .error f at h
    rcases bind_eq_error_iff.1 h with hlinks | ⟨parents, hparents, hrest⟩
    · exact .inr (.inl hlinks)
    · refine .inr (.inr ⟨parents, hparents, ?_⟩)
      split at hrest
      · rcases bind_eq_error_iff.1 hrest with htops | ⟨_, _, hpure⟩
        · obtain ⟨before, id, after, hkeys, -, hid⟩ := forM_eq_error_iff.1 htops
          have hmem : id ∈ records.keys.filter (· != rootId) := by
            rw [hkeys]
            exact List.mem_append_right _ (List.mem_cons_self ..)
          exact ⟨id, (List.mem_filter.1 hmem).1, hid⟩
        · cases hpure
      · cases hrest
  · rw [Bool.not_eq_true] at hroot
    rw [hroot] at h
    exact .inl ⟨(Except.error.inj h).symm, by rw [hroot]; exact Bool.false_ne_true⟩

/-- Whatever is found holds, unless it is a cycle: then the records branch, and the one that is reported
is out of reach with a cycle above it. -/
theorem holds_or_cycle_of_ofList {rs : List Record} {f : LoadFault} (h : ofList rs = .error f) :
    (f.Holds rs ∧ ∀ id, f ≠ .cycle id) ∨ ∃ (t : Tree) (id : RecordId),
      t.Holds rs ∧ t.Branching ∧ f = .cycle id ∧ (∃ r ∈ rs, r.id = id) ∧
        ¬ Relation.ReflTransGen (Names rs) rootId id ∧
        ∃ c, NamesBelow rs c c ∧ Relation.ReflTransGen (Names rs) c id := by
  unfold ofList at h
  rcases bind_eq_error_iff.1 h with henter | ⟨records, hrecords, hrest⟩
  · obtain ⟨before, r, after, m, rfl, hbefore, hr⟩ := exists_of_foldlM_eq_error henter
    exact .inl (holds_of_enter hbefore hr)
  · obtain ⟨-, hfind⟩ := foldlM_enter_eq_ok_iff.1 hrecords
    have hparents : parentsOf records = .error f := by
      rcases bind_eq_error_iff.1 hrest with hparents | ⟨_, _, hpure⟩
      · exact hparents
      · cases hpure
    rcases parentsOf_eq_error hparents with ⟨rfl, hroot⟩ | hlinks | ⟨parents, hlinks, id, hid, htop⟩
    · refine .inl ⟨?_, nofun⟩
      rintro ⟨r, hr, hid, hkind⟩
      exact hroot ((any_root_iff (t := ⟨records, .empty⟩)).2 ⟨r, (hfind _ _).2 ⟨hr, hid⟩, hkind⟩)
    · have hholds : Holds ⟨records, .empty⟩ rs := hfind
      obtain ⟨before, l, after, m, heq, hbefore, hl⟩ := exists_of_foldlM_eq_error hlinks
      exact .inl (Holds.holds_of_link hholds heq hbefore hl)
    · have hholds : Holds ⟨records, parents⟩ rs := hfind
      obtain ⟨henterable, hparent⟩ := foldlM_link_eq_ok_iff.1 hlinks
      have hbranching := (enterable_links_iff (t := ⟨records, parents⟩)).1 henterable
      have hmem : (Tree.mk records parents).contains id = true :=
        contains_iff.2 (records.mem_keys_iff.1 hid)
      obtain ⟨hunreached, hfault⟩ := Holds.holds_of_checkTop hholds hbranching
        (fun c p => (hparent c p).trans (mem_links (t := ⟨records, parents⟩))) hmem htop
      rcases hfault with rfl | ⟨rfl, hcycle⟩
      · exact .inl ⟨⟨Holds.contains_iff hholds |>.1 hmem, hunreached⟩, nofun⟩
      · exact .inr ⟨_, id, hholds, hbranching, rfl, Holds.contains_iff hholds |>.1 hmem, hunreached, hcycle⟩

/-- The fault that is named when a list of records is refused holds of the list, but for a cycle: the
record that is reported is out of reach with a cycle above it, and it is on one itself exactly if it has
one below it too. -/
theorem ofList_error_holds_iff {rs : List Record} {f : LoadFault} (h : ofList rs = .error f) :
    (f.Holds rs ↔ ∀ id, f = .cycle id →
      ∃ c, NamesBelow rs c c ∧ Relation.ReflTransGen (Names rs) id c) ∧
    ∀ id, f = .cycle id → (∃ r ∈ rs, r.id = id) ∧ ¬ Relation.ReflTransGen (Names rs) rootId id ∧
      ∃ c, NamesBelow rs c c ∧ Relation.ReflTransGen (Names rs) c id := by
  rcases holds_or_cycle_of_ofList h with
    ⟨hf, hne⟩ | ⟨t, x, hholds, hbranching, rfl, hmem, hunreached, hcycle⟩
  · exact ⟨⟨fun _ id heq => absurd heq (hne id), fun _ => hf⟩, fun id heq => absurd heq (hne id)⟩
  · refine ⟨(Holds.cycle_iff_exists_below hholds hbranching).trans ⟨?_, fun hbelow => hbelow x rfl⟩, ?_⟩
    · intro hbelow id heq
      obtain rfl := LoadFault.cycle.inj heq
      exact hbelow
    · intro id heq
      obtain rfl := LoadFault.cycle.inj heq
      exact ⟨hmem, hunreached, hcycle⟩

/-- Of two records that list each other and a third below them the one with the least number is
reported. -/
theorem ofList_error_holds_iff_pair :
    let rs : List Record := [.root "t", { Record.column 1 "a" with children := [2] },
      { Record.column 2 "b" with children := [1, 3] }, .column 3 "c"]
    ofList rs = .error (.cycle 1) ∧ NamesBelow rs 1 1 ∧ ¬ Relation.ReflTransGen (Names rs) rootId 1 := by
  intro rs
  have h : ofList rs = .error (.cycle 1) := by cbv
  obtain ⟨hiff, hcycle⟩ := ofList_error_holds_iff h
  have hnames : Names rs 1 2 ∧ Names rs 2 1 := by
    simp [rs, Names, Record.root, Record.column]
  have hself : NamesBelow rs 1 1 := .head hnames.1 (.single hnames.2)
  refine ⟨h, hiff.2 fun id heq => ?_, (hcycle 1 rfl).2.1⟩
  obtain rfl := LoadFault.cycle.inj heq
  exact ⟨1, hself, .refl⟩

/-- A record that lists nobody is reported as part of a cycle, since two others that list each other
list it too. -/
theorem not_forall_holds_of_ofList_error :
    ¬ ∀ (rs : List Record) (f : LoadFault), ofList rs = .error f → f.Holds rs := by
  intro hall
  let rs : List Record := [.root "root", .column 1 "a",
    { Record.column 2 "b" with children := [1, 3] }, { Record.column 3 "c" with children := [2] }]
  have h : ofList rs = .error (.cycle 1) := by cbv
  have hleaf : ∀ x, ¬ Names rs 1 x := by
    simp [rs, Names, Record.root, Record.column, rootId]
  obtain ⟨x, hx, -⟩ := Relation.TransGen.head'_iff.1 (hall rs _ h : NamesBelow rs 1 1)
  exact hleaf x hx

end Tree

end ColumnTree.Outline
