/-
# The columns that are seen

A place in a view is the way down to it, child by child.  `Opens` follows one way down to the first
closed record on it.  The queue of `frontier` holds the places from which such ways are still to go on:
they stand there in their order, and each before whatever is below one of them (`Ahead`), so that what
is listed from a queue is what the ways from its places lead to, in the order of the places
(`exists_places_frontier`).

The columns that are seen are then told without the queue.  They are those of the closed records below
the top with no closed record above them but perhaps the top, and no way down comes by two of these.
-/
import ColumnTree.Outline.View
import Mathlib.Data.List.Infix
import Mathlib.Order.Lex

namespace ColumnTree.Outline

namespace View

/-! ## Places -/

/-- Is the record shown opened up? -/
def shown : View → Bool
  | node _ _ _ s .. => s

/-- The kind. -/
def kind : View → Kind
  | node _ _ _ _ k _ => k

/-- The formula. -/
def formula : View → String
  | node _ _ _ _ _ f => f

/-- What a view has at a place. -/
def at? : View → List Nat → Option View
  | v, [] => some v
  | v, i :: p => v.children[i]?.bind (at? · p)

/-- A record that shows a column of its own, and nothing below. -/
def Closed (v : View) : Prop :=
  ¬ (v.kind = .aggregation ∧ v.formula = "") ∧ (v.isLeaf = true ∨ v.shown = false)

theorem isClosed_iff {v : View} : v.isClosed = true ↔ v.Closed := by
  cases v
  simp [isClosed, Closed, isLeaf, kind, formula, shown, children, imp_iff_not_or]

/-- The record at a place is closed. -/
def ClosedAt (v : View) (p : List Nat) : Prop :=
  ∃ w, v.at? p = some w ∧ w.Closed

/-- At a place below the top is a closed record, and none above it but perhaps the top. -/
def Shows (v : View) (p : List Nat) : Prop :=
  p ≠ [] ∧ v.ClosedAt p ∧ ∀ q, q <+: p → q ≠ [] → q ≠ p → ¬ v.ClosedAt q

/-- A place comes before another: it is on a higher level, or further to the left on the same. -/
def Earlier (p q : List Nat) : Prop :=
  p.length < q.length ∨ p.length = q.length ∧ p < q

/-! ## The order of places -/

namespace Earlier

variable {p q r : List Nat}

theorem trans (hpq : Earlier p q) (hqr : Earlier q r) : Earlier p r := by
  rcases hpq with hpq | ⟨hpq, hlt⟩ <;> rcases hqr with hqr | ⟨hqr, hlt'⟩
  · exact .inl (hpq.trans hqr)
  · exact .inl (hqr ▸ hpq)
  · exact .inl (hpq ▸ hqr)
  · exact .inr ⟨hpq.trans hqr, List.lt_trans hlt hlt'⟩

/-- What is below a place comes after whatever the place comes after. -/
theorem append (h : Earlier p q) (s : List Nat) : Earlier p (q ++ s) := by
  cases s with
  | nil => rwa [List.append_nil]
  | cons i s =>
      refine h.trans (.inl ?_)
      rw [List.length_append, List.length_cons]
      omega

theorem lt_concat (i j : Nat) (hlen : p.length = q.length) (h : p < q) : p ++ [i] < q ++ [j] := by
  induction h with
  | nil => cases hlen
  | rel hab => exact .rel hab
  | cons _ ih => exact .cons (ih (Nat.succ.inj hlen))

/-- Children come in the order of their parents. -/
theorem concat (h : Earlier p q) (i j : Nat) : Earlier (p ++ [i]) (q ++ [j]) := by
  unfold Earlier at *
  rw [List.length_append, List.length_append]
  rcases h with h | ⟨hlen, h⟩
  · exact .inl (Nat.add_lt_add_right h 1)
  · exact .inr ⟨congrArg (· + 1) hlen, lt_concat i j hlen h⟩

theorem siblings (p : List Nat) {i j : Nat} (h : i < j) : Earlier (p ++ [i]) (p ++ [j]) := by
  refine .inr ⟨by rw [List.length_append, List.length_append]; rfl, ?_⟩
  induction p with
  | nil => exact .rel h
  | cons a p ih => exact .cons ih

end Earlier

/-! ## Ways down to the first closed record -/

/-- The way down from one record to the first closed one on it. -/
inductive Opens : View → List Nat → View → Prop where
  | here {v : View} : v.Closed → Opens v [] v
  | down {v c w : View} {i : Nat} {p : List Nat} :
    ¬ v.Closed → v.children[i]? = some c → Opens c p w → Opens v (i :: p) w

theorem at?_nil (v : View) : v.at? [] = some v :=
  rfl

theorem at?_cons (v : View) (i : Nat) (p : List Nat) :
    v.at? (i :: p) = v.children[i]?.bind (at? · p) :=
  rfl

theorem closedAt_nil {v : View} : v.ClosedAt [] ↔ v.Closed := by
  simp [ClosedAt, at?_nil]

theorem closedAt_cons {v c : View} {i : Nat} {p : List Nat} (hc : v.children[i]? = some c) :
    v.ClosedAt (i :: p) ↔ c.ClosedAt p := by
  simp [ClosedAt, at?_cons, hc]

namespace Opens

variable {v w : View} {p : List Nat}

theorem at?_eq (h : Opens v p w) : v.at? p = some w := by
  induction h with
  | here => rfl
  | down _ hc _ ih => rw [at?_cons, hc, Option.bind_some, ih]

theorem closed (h : Opens v p w) : w.Closed := by
  induction h with
  | here hv => exact hv
  | down _ _ _ ih => exact ih

/-- A way down leads to the first closed record on it if that is closed and none before it is. -/
theorem exists_iff : (∃ w, Opens v p w) ↔
    v.ClosedAt p ∧ ∀ q, q <+: p → q ≠ p → ¬ v.ClosedAt q := by
  constructor
  · rintro ⟨w, h⟩
    refine ⟨⟨w, h.at?_eq, h.closed⟩, ?_⟩
    induction h with
    | here =>
        intro q hq hne
        exact absurd (List.prefix_nil.1 hq) hne
    | @down v c w i p hv hc _ ih =>
        intro q hq hne
        cases q with
        | nil => rwa [closedAt_nil]
        | cons j q =>
            obtain ⟨rfl, htail⟩ := List.cons_prefix_cons.1 hq
            rw [closedAt_cons hc]
            exact ih q htail fun heq => hne (congrArg _ heq)
  · rintro ⟨hp, hopen⟩
    induction p generalizing v with
    | nil => exact ⟨v, .here (closedAt_nil.1 hp)⟩
    | cons i p ih =>
        have hv : ¬ v.Closed := fun hv =>
          hopen [] List.nil_prefix (List.cons_ne_nil i p).symm (closedAt_nil.2 hv)
        obtain ⟨w, hw, hwc⟩ := hp
        obtain ⟨c, hc, hw⟩ := Option.bind_eq_some_iff.1 hw
        obtain ⟨w', h⟩ := ih (v := c) ⟨w, hw, hwc⟩ fun q hq hne hqc =>
          hopen (i :: q) (List.cons_prefix_cons.2 ⟨rfl, hq⟩)
            (fun heq => hne (List.cons.inj heq).2) ((closedAt_cons hc).2 hqc)
        exact ⟨w', .down hv hc h⟩

end Opens

/-- The places of columns are where the ways down from the children of the top lead. -/
theorem shows_iff {v : View} {p : List Nat} :
    v.Shows p ↔ ∃ i c s w, p = i :: s ∧ v.children[i]? = some c ∧ Opens c s w := by
  constructor
  · rintro ⟨hne, hp, hopen⟩
    obtain ⟨i, s, rfl⟩ := List.exists_cons_of_ne_nil hne
    obtain ⟨w, hw, hwc⟩ := hp
    obtain ⟨c, hc, hw⟩ := Option.bind_eq_some_iff.1 hw
    obtain ⟨w', h⟩ := Opens.exists_iff.2 ⟨⟨w, hw, hwc⟩, fun q hq hqs hqc =>
      hopen (i :: q) (List.cons_prefix_cons.2 ⟨rfl, hq⟩) (List.cons_ne_nil i q)
        (fun heq => hqs (List.cons.inj heq).2) ((closedAt_cons hc).2 hqc)⟩
    exact ⟨i, c, s, w', rfl, hc, h⟩
  · rintro ⟨i, c, s, w, rfl, hc, h⟩
    obtain ⟨hs, hopen⟩ := Opens.exists_iff.1 ⟨w, h⟩
    refine ⟨List.cons_ne_nil i s, (closedAt_cons hc).2 hs, fun q hq hne hqs => ?_⟩
    obtain ⟨j, q, rfl⟩ := List.exists_cons_of_ne_nil hne
    obtain ⟨rfl, htail⟩ := List.cons_prefix_cons.1 hq
    rw [closedAt_cons hc]
    exact hopen q htail fun heq => hqs (congrArg _ heq)

/-! ## The queue -/

/-- The children of the record at a place, each with its own place. -/
def branches (p : List Nat) (v : View) : List (List Nat × View) :=
  v.children.zipIdx.map fun e => (p ++ [e.2], e.1)

theorem map_snd_branches (p : List Nat) (v : View) : (branches p v).map (·.2) = v.children := by
  rw [branches, List.map_map]
  exact List.zipIdx_map_fst 0 v.children

theorem mem_branches {p q : List Nat} {v c : View} :
    (q, c) ∈ branches p v ↔ ∃ i, q = p ++ [i] ∧ v.children[i]? = some c := by
  simp only [branches, List.mem_map, Prod.exists, List.mem_zipIdx_iff_getElem?, Prod.mk.injEq]
  constructor
  · rintro ⟨c, i, hc, rfl, rfl⟩
    exact ⟨i, rfl, hc⟩
  · rintro ⟨i, rfl, hc⟩
    exact ⟨c, i, hc, rfl, rfl⟩

theorem pairwise_branches (p : List Nat) (v : View) :
    (branches p v).Pairwise fun a b => Earlier a.1 b.1 := by
  refine List.pairwise_map.2 ?_
  have hidx : (v.children.zipIdx.map (·.2)).Pairwise (· < ·) := by
    rw [List.zipIdx_map_snd]
    exact List.pairwise_lt_range'
  exact (List.pairwise_map.1 hidx).imp fun hlt => Earlier.siblings p hlt

/-- The places in a queue are in their order, and each comes before whatever is below one of them. -/
structure Ahead (qs : List (List Nat × View)) : Prop where
  sorted : qs.Pairwise fun a b => Earlier a.1 b.1
  below : ∀ a ∈ qs, ∀ b ∈ qs, ∀ i, Earlier a.1 (b.1 ++ [i])

namespace Ahead

variable {p : List Nat} {v : View} {rest : List (List Nat × View)}

theorem start (v : View) : Ahead (branches [] v) := by
  refine ⟨pairwise_branches [] v, ?_⟩
  rintro ⟨a, u⟩ ha ⟨b, w⟩ hb i
  obtain ⟨j, rfl, -⟩ := mem_branches.1 ha
  obtain ⟨k, rfl, -⟩ := mem_branches.1 hb
  exact .inl (Nat.lt_succ_self _)

theorem tail (h : Ahead ((p, v) :: rest)) : Ahead rest :=
  ⟨(List.pairwise_cons.1 h.sorted).2, fun a ha b hb =>
    h.below a (List.mem_cons_of_mem _ ha) b (List.mem_cons_of_mem _ hb)⟩

/-- The children of the first record may go to the end of the queue. -/
theorem open_first (h : Ahead ((p, v) :: rest)) : Ahead (rest ++ branches p v) := by
  obtain ⟨hfirst, hrest⟩ := List.pairwise_cons.1 h.sorted
  have hself : (p, v) ∈ (p, v) :: rest := List.mem_cons_self ..
  refine ⟨List.pairwise_append.2 ⟨hrest, pairwise_branches p v, ?_⟩, ?_⟩
  · rintro a ha ⟨q, c⟩ hq
    obtain ⟨i, rfl, -⟩ := mem_branches.1 hq
    exact h.below a (List.mem_cons_of_mem _ ha) _ hself i
  · rintro ⟨a, u⟩ ha ⟨b, w⟩ hb j
    rcases List.mem_append.1 ha with ha | ha <;> rcases List.mem_append.1 hb with hb | hb
    · exact h.tail.below _ ha _ hb j
    · obtain ⟨i, rfl, -⟩ := mem_branches.1 hb
      exact (h.below _ (List.mem_cons_of_mem _ ha) _ hself i).append [j]
    · obtain ⟨i, rfl, -⟩ := mem_branches.1 ha
      exact (hfirst _ hb).concat i j
    · obtain ⟨i, rfl, -⟩ := mem_branches.1 ha
      obtain ⟨k, rfl, -⟩ := mem_branches.1 hb
      refine .inl ?_
      simp

end Ahead

/-- What the ways down from the places in a queue lead to, with its places. -/
def Ends (qs : List (List Nat × View)) (r : List Nat) (w : View) : Prop :=
  ∃ p v s, (p, v) ∈ qs ∧ r = p ++ s ∧ Opens v s w

theorem ends_cons_of_closed {p r : List Nat} {v w : View} {rest : List (List Nat × View)}
    (hv : v.Closed) : Ends ((p, v) :: rest) r w ↔ (r, w) = (p, v) ∨ Ends rest r w := by
  constructor
  · rintro ⟨q, u, s, hmem, rfl, h⟩
    rcases List.mem_cons.1 hmem with heq | hmem
    · obtain ⟨rfl, rfl⟩ := Prod.mk.inj heq
      cases h with
      | here => exact .inl (by rw [List.append_nil])
      | down hopen => exact absurd hv hopen
    · exact .inr ⟨q, u, s, hmem, rfl, h⟩
  · rintro (heq | ⟨q, u, s, hmem, rfl, h⟩)
    · obtain ⟨rfl, rfl⟩ := Prod.mk.inj heq
      exact ⟨r, w, [], List.mem_cons_self .., (List.append_nil r).symm, .here hv⟩
    · exact ⟨q, u, s, List.mem_cons_of_mem _ hmem, rfl, h⟩

theorem ends_cons_of_not_closed {p r : List Nat} {v w : View} {rest : List (List Nat × View)}
    (hv : ¬ v.Closed) : Ends ((p, v) :: rest) r w ↔ Ends (rest ++ branches p v) r w := by
  constructor
  · rintro ⟨q, u, s, hmem, rfl, h⟩
    rcases List.mem_cons.1 hmem with heq | hmem
    · obtain ⟨rfl, rfl⟩ := Prod.mk.inj heq
      cases h with
      | here hclosed => exact absurd hclosed hv
      | @down _ c _ i s _ hc h =>
          refine ⟨q ++ [i], c, s, List.mem_append_right _ (mem_branches.2 ⟨i, rfl, hc⟩), ?_, h⟩
          rw [List.append_assoc]
          rfl
    · exact ⟨q, u, s, List.mem_append_left _ hmem, rfl, h⟩
  · rintro ⟨q, u, s, hmem, rfl, h⟩
    rcases List.mem_append.1 hmem with hmem | hmem
    · exact ⟨q, u, s, List.mem_cons_of_mem _ hmem, rfl, h⟩
    · obtain ⟨i, rfl, hc⟩ := mem_branches.1 hmem
      refine ⟨p, v, i :: s, List.mem_cons_self .., ?_, .down hv hc h⟩
      rw [List.append_assoc]
      rfl

/-- What is listed from a queue is what the ways down from its places lead to, in the order of the
places. -/
theorem exists_places_frontier {qs : List (List Nat × View)} (h : Ahead qs) :
    ∃ rs : List (List Nat × View), (rs.Pairwise fun a b => Earlier a.1 b.1) ∧
      (∀ r w, (r, w) ∈ rs ↔ Ends qs r w) ∧ rs.map (·.2.name) = frontier (qs.map (·.2)) := by
  induction hvs : qs.map (·.2) using frontier.induct generalizing qs with
  | case1 =>
      obtain rfl := List.map_eq_nil_iff.1 hvs
      refine ⟨[], .nil, fun r w => ⟨nofun, ?_⟩, by rw [frontier]; rfl⟩
      rintro ⟨p, v, s, hmem, -⟩
      cases hmem
  | case2 v vs hv ih =>
      obtain ⟨⟨p, v⟩, rest, rfl, rfl, rfl⟩ := List.map_eq_cons_iff.1 hvs
      obtain ⟨rs, hsorted, hmem, hnames⟩ := ih h.tail rfl
      refine ⟨(p, v) :: rs, List.pairwise_cons.2 ⟨?_, hsorted⟩, fun r w => ?_, ?_⟩
      · rintro ⟨r, w⟩ hr
        obtain ⟨q, u, s, hq, rfl, -⟩ := (hmem r w).1 hr
        exact ((List.pairwise_cons.1 h.sorted).1 (q, u) hq).append s
      · rw [List.mem_cons, hmem, ends_cons_of_closed (isClosed_iff.1 hv)]
      · rw [frontier, if_pos hv, List.map_cons, hnames]
  | case3 v vs hv ih =>
      obtain ⟨⟨p, v⟩, rest, rfl, rfl, rfl⟩ := List.map_eq_cons_iff.1 hvs
      obtain ⟨rs, hsorted, hmem, hnames⟩ := ih h.open_first (by
        rw [List.map_append, map_snd_branches])
      refine ⟨rs, hsorted, fun r w => ?_, ?_⟩
      · rw [hmem, ends_cons_of_not_closed fun hclosed => hv (isClosed_iff.2 hclosed)]
      · rw [hnames, frontier, if_neg hv]

/-! ## The columns -/

/-- No way down comes by two places of columns. -/
theorem Shows.eq_of_prefix {v : View} {p q r : List Nat} (hq : v.Shows q) (hr : v.Shows r)
    (hqp : q <+: p) (hrp : r <+: p) : q = r := by
  by_contra hne
  rcases List.prefix_or_prefix_of_prefix hqp hrp with hqr | hrq
  · exact hr.2.2 q hqr hq.1 hne hq.2.1
  · exact hq.2.2 r hrq hr.1 (Ne.symm hne) hr.2.1

/-- A way down that comes by a closed record below the top comes by the place of a column. -/
theorem ClosedAt.exists_shows {v : View} {p : List Nat} (hp : v.ClosedAt p) (hne : p ≠ []) :
    ∃ q, q <+: p ∧ v.Shows q := by
  induction hn : p.length using Nat.strong_induction_on generalizing p with
  | _ n ih =>
    by_cases hcloser : ∃ q, q <+: p ∧ q ≠ [] ∧ q ≠ p ∧ v.ClosedAt q
    · obtain ⟨q, hqp, hq, hqne, hclosed⟩ := hcloser
      have hlt : q.length < n := by
        have hle := hqp.length_le
        have : q.length ≠ p.length := fun heq => hqne (hqp.eq_of_length heq)
        omega
      obtain ⟨r, hrq, hr⟩ := ih q.length hlt hclosed hq rfl
      exact ⟨r, hrq.trans hqp, hr⟩
    · exact ⟨p, List.prefix_refl p, hne, hp, fun q hqp hq hqne hclosed =>
        hcloser ⟨q, hqp, hq, hqne, hclosed⟩⟩

/-- The ways down from the places of the children are those on which the columns are looked for. -/
theorem ends_branches_iff {v w : View} {r : List Nat} : Ends (branches [] v) r w ↔
    ∃ i c s, r = i :: s ∧ v.children[i]? = some c ∧ Opens c s w := by
  constructor
  · rintro ⟨p, c, s, hp, rfl, h⟩
    obtain ⟨i, rfl, hc⟩ := mem_branches.1 hp
    exact ⟨i, c, s, rfl, hc, h⟩
  · rintro ⟨i, c, s, rfl, hc, h⟩
    exact ⟨[i], c, s, mem_branches.2 ⟨i, rfl, hc⟩, rfl, h⟩

/-- A way down to a leaf has one column, unless there is no closed record on it. -/
theorem existsUnique_shows_or {v leaf : View} {p : List Nat} (hne : p ≠ [])
    (hleaf : v.at? p = some leaf) (hend : leaf.isLeaf = true) :
    (∃! q, q <+: p ∧ v.Shows q) ∨
      (leaf.kind = .aggregation ∧ leaf.formula = "") ∧ ∀ q, q <+: p → q ≠ [] → ¬ v.ClosedAt q := by
  by_cases hclosed : ∃ q, q <+: p ∧ q ≠ [] ∧ v.ClosedAt q
  · obtain ⟨q, hqp, hq, hqc⟩ := hclosed
    obtain ⟨r, hrq, hr⟩ := hqc.exists_shows hq
    refine .inl ⟨r, ⟨hrq.trans hqp, hr⟩, ?_⟩
    rintro r' ⟨hr'p, hr'⟩
    exact hr'.eq_of_prefix hr hr'p (hrq.trans hqp)
  · have hopen : ∀ q, q <+: p → q ≠ [] → ¬ v.ClosedAt q := fun q hqp hq hqc =>
      hclosed ⟨q, hqp, hq, hqc⟩
    refine .inr ⟨?_, hopen⟩
    by_contra hcolumn
    exact hopen p (List.prefix_refl p) hne ⟨leaf, hleaf, hcolumn, .inl hend⟩

/-- The columns that are seen are the names at the places of closed records that have none above them
but perhaps the top: each place once, level by level and from the left to the right.  So each way from
below the top down to a leaf has one column, unless there is no closed record on it, since the leaf is
an aggregation without a formula. -/
theorem visibleColumns_are_frontier (v : View) :
    (∃ ps : List (List Nat), ps.Pairwise Earlier ∧ (∀ p, p ∈ ps ↔ v.Shows p) ∧
      ps.map (fun p => (v.at? p).map name) = v.visibleColumns.map some) ∧
    ∀ p leaf, p ≠ [] → v.at? p = some leaf → leaf.isLeaf = true →
      (∃! q, q <+: p ∧ v.Shows q) ∨
        (leaf.kind = .aggregation ∧ leaf.formula = "") ∧ ∀ q, q <+: p → q ≠ [] → ¬ v.ClosedAt q := by
  refine ⟨?_, fun p leaf => existsUnique_shows_or⟩
  obtain ⟨rs, hsorted, hmem, hnames⟩ := exists_places_frontier (Ahead.start v)
  simp only [ends_branches_iff] at hmem
  refine ⟨rs.map (·.1), List.pairwise_map.2 hsorted, fun p => ?_, ?_⟩
  · rw [shows_iff, List.mem_map]
    constructor
    · rintro ⟨⟨p, w⟩, hr, rfl⟩
      obtain ⟨i, c, s, heq, hc, h⟩ := (hmem p w).1 hr
      exact ⟨i, c, s, w, heq, hc, h⟩
    · rintro ⟨i, c, s, w, heq, hc, h⟩
      exact ⟨(p, w), (hmem p w).2 ⟨i, c, s, heq, hc, h⟩, rfl⟩
  · rw [visibleColumns, ← map_snd_branches [] v, ← hnames, List.map_map, List.map_map]
    refine List.map_congr_left fun ⟨p, w⟩ hr => ?_
    obtain ⟨i, c, s, rfl, hc, h⟩ := (hmem p w).1 hr
    have hat : v.at? (i :: s) = some w := by
      rw [at?_cons, hc]
      exact h.at?_eq
    show (v.at? (i :: s)).map name = some w.name
    rw [hat]
    rfl

/-- A column on a higher level comes first, also from further to the right. -/
example : visibleColumns (.node 0 "t" [.node 1 "g" [.node 2 "a" [] true .column ""] true .aggregation "",
    .node 3 "b" [] true .column ""] true .root "") = ["b", "a"] := by
  cbv

end View

end ColumnTree.Outline
