/-
# Aggregations and their children

A sum, a mean or a joined text is made from the columns that its aggregation lists.  `Draws` says of
a record that it lists another for such a formula; in a tree that is `InScope` all that is drawn on
are children.

Taking a record away keeps a tree in scope: the parent strikes the record off its list and makes its
formula again.  When a record is moved nothing is struck off but what it lists of itself, so that a
move keeps the tree in scope exactly if no parent but the new one has drawn on the record.
-/
import ColumnTree.Proofs.Formula.Compiled
import ColumnTree.Proofs.Outline.Loading
import ColumnTree.Proofs.Outline.Restore

namespace ColumnTree.Outline

open Formula

/-! ## What a record draws on -/

/-- The record is an aggregation that lists a column for a formula made from columns. -/
def Record.Draws (r : Record) (c : RecordId) : Prop :=
  r.kind = .aggregation ∧
    ∃ a, r.aggregation? = some a ∧ a.operation ≠ .custom ∧ a.lists c = true

/-- A record of the tree draws on another. -/
def Tree.Draws (t : Tree) (p c : RecordId) : Prop :=
  ∃ r, t.find? p = some r ∧ r.Draws c

/-- Records draw on their own children only. -/
def Tree.InScope (t : Tree) : Prop :=
  ∀ p c, t.Draws p c → c ∈ t.children p

/-- The formula is the one that is made from the columns listed, or there is none. -/
def Aggregation.Made (l : Library) (a : Aggregation) : Prop :=
  (a.formula = "" ∧ a.exec = "") ∨
    ∃ e, generate l a.operation a.columns = .valid a.formula e ∧ a.exec = e.exec

namespace Aggregation

variable {l : Library} {name : String} {a : Aggregation} {gone : Record} {c id : RecordId}

theorem lists_without_iff : (a.without id).lists c = true ↔ a.lists c = true ∧ c ≠ id := by
  simp only [lists_iff, without, List.mem_filter, bne_iff_ne]
  constructor
  · rintro ⟨d, ⟨hd, hne⟩, rfl⟩
    exact ⟨⟨d, hd, rfl⟩, hne⟩
  · rintro ⟨⟨d, hd, rfl⟩, hne⟩
    exact ⟨d, ⟨hd, hne⟩, rfl⟩

theorem lists_afterRemoval_iff :
    (a.afterRemoval l name gone).1.lists c = true ↔ a.lists c = true ∧ c ≠ gone.id := by
  rw [lists_iff, columns_afterRemoval, ← lists_iff, lists_without_iff]

/-- Unless it is custom, the formula is made again when a child has left. -/
theorem made_afterRemoval (h : a.operation ≠ .custom) :
    (a.afterRemoval l name gone).1.Made l := by
  rcases a.afterRemoval_cases with
    ⟨-, heq⟩ | ⟨-, ⟨hop, -⟩ | ⟨formula, compiled, hgenerate, heq⟩ | ⟨_, -, heq⟩⟩
  · rw [heq]
    exact .inl ⟨rfl, rfl⟩
  · exact absurd hop h
  · rw [heq]
    exact .inr ⟨compiled, hgenerate, rfl⟩
  · rw [heq]
    exact .inl ⟨rfl, rfl⟩

end Aggregation

namespace Record

variable {l : Library} {r gone : Record} {c : RecordId}

theorem draws_splicing {x : RecordId} {others : List RecordId} :
    (r.splicing x others).Draws c ↔ r.Draws c := Iff.rfl

theorem draws_keeping {keep : RecordId → Bool} : (r.keeping keep).Draws c ↔ r.Draws c := Iff.rfl

theorem draws_inserting {place : Option UInt64} {x : RecordId} :
    (r.inserting place x).Draws c ↔ r.Draws c := Iff.rfl

theorem draws_unlisting {x : RecordId} : (r.unlisting x).Draws c ↔ r.Draws c ∧ c ≠ x := by
  constructor
  · rintro ⟨hk, b, hb, hop, hlists⟩
    obtain ⟨a, ha, rfl⟩ := Option.map_eq_some_iff.1 hb
    obtain ⟨hlists, hne⟩ := Aggregation.lists_without_iff.1 hlists
    exact ⟨⟨hk, a, ha, hop, hlists⟩, hne⟩
  · rintro ⟨⟨hk, a, ha, hop, hlists⟩, hne⟩
    exact ⟨hk, a.without x, Option.map_eq_some_iff.2 ⟨a, ha, rfl⟩, hop,
      Aggregation.lists_without_iff.2 ⟨hlists, hne⟩⟩

theorem draws_following : (r.following l gone).Draws c ↔ r.Draws c ∧ c ≠ gone.id := by
  by_cases hbears : r.kind = .aggregation ∧ ∃ a, r.aggregation? = some a
  · obtain ⟨hk, a, ha⟩ := hbears
    rw [following_of_aggregation? hk ha]
    constructor
    · rintro ⟨-, b, hb, hop, hlists⟩
      obtain rfl := Option.some.inj hb
      rw [Aggregation.operation_afterRemoval] at hop
      obtain ⟨hlists, hne⟩ := Aggregation.lists_afterRemoval_iff.1 hlists
      exact ⟨⟨hk, a, ha, hop, hlists⟩, hne⟩
    · rintro ⟨⟨-, b, hb, hop, hlists⟩, hne⟩
      obtain rfl := Option.some.inj (ha.symm.trans hb)
      refine ⟨hk, _, rfl, ?_, Aggregation.lists_afterRemoval_iff.2 ⟨hlists, hne⟩⟩
      rwa [Aggregation.operation_afterRemoval]
  · -- Without an aggregation nothing follows, and nothing is drawn on.
    have hnone : ¬ r.Draws c := fun ⟨hk, a, ha, _⟩ => hbears ⟨hk, a, ha⟩
    have heq : r.following l gone = r := following_eq_self
      (fun hk => Option.eq_none_iff_forall_ne_some.2 fun a ha => hbears ⟨hk, a, ha⟩) l gone
    rw [heq]
    exact iff_of_false hnone fun h => hnone h.1

end Record

/-! ## What a tree draws on -/

namespace Tree

theorem draws_iff_of_find? {t : Tree} {p c : RecordId} {r : Record} (hr : t.find? p = some r) :
    t.Draws p c ↔ r.Draws c := by
  constructor
  · rintro ⟨r', hr', hdraws⟩
    rwa [Option.some.inj (hr.symm.trans hr')]
  · intro hdraws
    exact ⟨r, hr, hdraws⟩

theorem inScope_iff {t : Tree} : t.InScope ↔ ∀ e ∈ t.records.entries, e.2.kind = .aggregation →
    ∀ a ∈ e.2.aggregation?, a.operation ≠ .custom → ∀ d ∈ a.columns, d.id ∈ e.2.children := by
  constructor
  · rintro h ⟨p, r⟩ hr hk a ha hop d hd
    have hr : t.find? p = some r := t.records.find?_eq_some_iff.2 hr
    rw [← children_of_find? hr]
    exact h p d.id ⟨r, hr, hk, a, ha, hop, Aggregation.lists_iff.2 ⟨d, hd, rfl⟩⟩
  · rintro h p c ⟨r, hr, hk, a, ha, hop, hlists⟩
    obtain ⟨d, hd, rfl⟩ := Aggregation.lists_iff.1 hlists
    rw [children_of_find? hr]
    exact h (p, r) (t.records.find?_eq_some_iff.1 hr) hk a ha hop d hd

instance (t : Tree) : Decidable t.InScope :=
  decidable_of_iff _ inScope_iff.symm

section Remove

variable {l : Library} {t : Tree} (h : t.WellFormed) {x p : RecordId} {gone r : Record}
  (hp : t.parent? x = some p) (hx : t.find? x = some gone) (hr : t.find? p = some r)
  (hid : gone.id = x) (hne : x ≠ rootId)

include h hp hx hr hid hne

theorem draws_removed {q c : RecordId} :
    (t.remove l x).tree.Draws q c ↔ t.Draws q c ∧ q ≠ x ∧ (q = p → c ≠ x) := by
  have hfind := find?_removed (l := l) h.toLinked hp hx hr hid hne q
  have hpx : p ≠ x := (h.ne_of_mem (h.parent_iff.1 hp)).symm
  by_cases hq : q = x
  · rw [if_pos hq] at hfind
    refine iff_of_false (fun ⟨r', hr', _⟩ => ?_) fun hno => hno.2.1 hq
    rw [hfind] at hr'
    cases hr'
  · rw [if_neg hq] at hfind
    by_cases hqp : q = p
    · subst hqp
      rw [if_pos rfl] at hfind
      rw [draws_iff_of_find? hfind, draws_iff_of_find? hr, Record.draws_following,
        Record.draws_splicing, hid]
      exact ⟨fun ⟨hd, hc⟩ => ⟨hd, hq, fun _ => hc⟩, fun ⟨hd, _, hc⟩ => ⟨hd, hc rfl⟩⟩
    · rw [if_neg hqp] at hfind
      unfold Draws
      rw [hfind]
      exact ⟨fun hd => ⟨hd, hq, fun heq => absurd heq hqp⟩, fun hd => hd.1⟩

/-- The formula of the parent is made again. -/
theorem made_removed {r' : Record} {a : Aggregation} (hr' : (t.remove l x).tree.find? p = some r')
    (hk : r'.kind = .aggregation) (ha : r'.aggregation? = some a) (hop : a.operation ≠ .custom) :
    a.Made l := by
  have hpx : p ≠ x := (h.ne_of_mem (h.parent_iff.1 hp)).symm
  rw [find?_removed h.toLinked hp hx hr hid hne, if_neg hpx, if_pos rfl] at hr'
  obtain rfl := Option.some.inj hr'
  rw [Record.kind_following] at hk
  cases hbefore : (r.splicing x gone.children).aggregation? with
  | none =>
      rw [Record.following_eq_self fun _ => hbefore] at ha
      rw [hbefore] at ha
      cases ha
  | some before =>
      rw [Record.following_of_aggregation? hk hbefore] at ha
      obtain rfl := Option.some.inj ha
      exact Aggregation.made_afterRemoval (Aggregation.operation_afterRemoval ▸ hop)

end Remove

/-- What a change of records does to drawing, it does to the record of a number. -/
theorem draws_map {o : Option Record} {f : Record → Record} {c : RecordId} {P : Prop}
    (hf : ∀ r, (f r).Draws c ↔ r.Draws c ∧ P) :
    (∃ r, o.map f = some r ∧ r.Draws c) ↔ (∃ r, o = some r ∧ r.Draws c) ∧ P := by
  constructor
  · rintro ⟨_, heq, hdraws⟩
    obtain ⟨r, hr, rfl⟩ := Option.map_eq_some_iff.1 heq
    obtain ⟨hdraws, hP⟩ := (hf r).1 hdraws
    exact ⟨⟨r, hr, hdraws⟩, hP⟩
  · rintro ⟨⟨r, hr, hdraws⟩, hP⟩
    exact ⟨f r, by rw [hr, Option.map_some], (hf r).2 ⟨hdraws, hP⟩⟩

theorem draws_move {t : Tree} (h : t.Linked) {s target : RecordId} (hc : t.CanMove s target)
    (place : Option UInt64) {q c : RecordId} :
    (t.move s target place).tree.Draws q c ↔ t.Draws q c ∧ (q = s → c ≠ s) := by
  obtain ⟨old, r, hold, hr⟩ := h.exists_parent_of_move hc
  have hst : s ≠ target := fun heq => hc.outside (heq ▸ .refl)
  -- The lists of children do not matter for what is drawn on.
  have hkeep : ∀ r : Record, (r.keeping (· != s)).Draws c ↔ r.Draws c ∧ True := fun r => by
    rw [Record.draws_keeping, and_true]
  have hinsert : ∀ r : Record, (r.inserting place s).Draws c ↔ r.Draws c ∧ True := fun r => by
    rw [Record.draws_inserting, and_true]
  unfold Draws
  rw [find?_move h hc hold hr place q]
  dsimp only
  by_cases hqs : q = s
  · subst hqs
    rw [if_pos rfl, if_neg hst, draws_map fun _ => Record.draws_unlisting, draws_map hkeep]
    simp
  · rw [if_neg hqs]
    split
    · rw [draws_map hinsert, draws_map hkeep]
      simp [hqs]
    · rw [draws_map hkeep]
      simp [hqs]

/-! ## Removing and moving -/

/-- Taking a record away keeps a tree in scope. -/
theorem InScope.remove {t : Tree} (ht : t.InScope) (h : t.WellFormed) (l : Library)
    (x : RecordId) : (t.remove l x).tree.InScope := by
  by_cases hc : t.CanRemove x
  · obtain ⟨p, gone, r, hp, hx, hr, hid⟩ := h.exists_parent_record hc
    intro q c hdraws
    obtain ⟨hdraws, hqx, hcx⟩ := (draws_removed h hp hx hr hid hc.ne_root).1 hdraws
    have hmem := ht q c hdraws
    have hne : c ≠ x := by
      rintro rfl
      exact hcx (h.parent_unique hmem (h.parent_iff.1 hp)) rfl
    exact (mem_children_removed h.toLinked hp hx hr hid hc.ne_root c q).2 ⟨hqx, hne, .inl hmem⟩
  · rw [remove_of_not hc]
    exact ht

/-- A move keeps a tree in scope exactly if no record but the new parent has drawn on what is
moved. -/
theorem InScope.move_iff {t : Tree} (ht : t.InScope) (h : t.WellFormed) {s target : RecordId}
    (hc : t.CanMove s target) (place : Option UInt64) :
    (t.move s target place).tree.InScope ↔ ∀ p, t.Draws p s → p = target := by
  obtain ⟨old, r, hold, hr⟩ := h.exists_parent_of_move hc
  have hmem := mem_children_move h.toLinked hc hold hr place
  constructor
  · intro ht' p hdraws
    have hps : p ≠ s := (h.ne_of_mem (ht p s hdraws)).symm
    have hin := ht' p s ((draws_move h.toLinked hc place).2 ⟨hdraws, fun heq => absurd heq hps⟩)
    rcases (hmem s p).1 hin with ⟨-, hne⟩ | ⟨heq, -⟩
    · exact absurd rfl hne
    · exact heq
  · intro honly q c hdraws
    obtain ⟨hbefore, -⟩ := (draws_move h.toLinked hc place).1 hdraws
    by_cases hcs : c = s
    · exact (hmem c q).2 (.inr ⟨honly q (hcs ▸ hbefore), hcs⟩)
    · exact (hmem c q).2 (.inl ⟨ht q c hbefore, hcs⟩)

/-- Removals, and moves of records on which no parent but the new one draws. -/
def SparesScope (t : Tree) : Command → Prop
  | .remove _ => True
  | .move s target _ => ∀ p, t.Draws p s → p = target
  | _ => False

theorem InScope.edit {l : Library} {t : Tree} (ht : t.InScope) (h : t.WellFormed) {c : Command}
    (hc : ∀ cs, c ≠ .batch cs) (hspare : (t.apply l c).inverse? ≠ none → t.SparesScope c) :
    (t.apply l c).tree.InScope := by
  cases hinv : (t.apply l c).inverse? with
  | none =>
      rw [tree_eq_of_inverse?_eq_none h hc hinv]
      exact ht
  | some inv =>
      have hspare := hspare (by simp [hinv])
      cases c with
      | remove x =>
          rw [Tree.apply]
          exact ht.remove h l x
      | move s target place =>
          rw [Tree.apply] at hinv ⊢
          by_cases hmove : t.CanMove s target
          · exact (ht.move_iff h hmove place).2 hspare
          · rw [h.move_of_not hmove]
            exact ht
      | add | update | batch => exact hspare.elim

/-- A command of removals and of such moves keeps a tree in scope. -/
theorem InScope.apply {l : Library} (c : Command) {t : Tree} (ht : t.InScope) (h : t.WellFormed)
    (hc : EachEdit l SparesScope c t) : (t.apply l c).tree.InScope :=
  hc.keeps (fun hsingle h ht hspare => ht.edit h hsingle hspare) c h ht

/-- In a tree that is in scope, a removal keeps it so, and a formula of the parent that is not custom
is the one made from the columns left, or none; a move keeps it so exactly if, when it is made, no
record but the new parent has drawn on what is moved. -/
theorem inScope_remove_and_move_iff {l : Library} {t : Tree} (h : t.WellFormed) (ht : t.InScope) :
    (∀ x, (t.remove l x).tree.InScope) ∧
      (∀ x p r a, t.CanRemove x → t.parent? x = some p → (t.remove l x).tree.find? p = some r →
        r.kind = .aggregation → r.aggregation? = some a → a.operation ≠ .custom → a.Made l) ∧
      ∀ s target place, (t.move s target place).tree.InScope ↔
        (t.CanMove s target → ∀ p, t.Draws p s → p = target) := by
  refine ⟨fun x => ht.remove h l x, ?_, ?_⟩
  · intro x p r a hc hp hr hk ha hop
    obtain ⟨p', gone, before, hp', hx, hbefore, hid⟩ := h.exists_parent_record hc
    obtain rfl := Option.some.inj (hp.symm.trans hp')
    exact made_removed h hp hx hbefore hid hc.ne_root hr hk ha hop
  · intro s target place
    by_cases hc : t.CanMove s target
    · rw [ht.move_iff h hc place]
      exact ⟨fun honly _ => honly, fun honly => honly hc⟩
    · rw [h.move_of_not hc]
      exact ⟨fun _ hc' => absurd hc' hc, fun _ => ht⟩

/-- A sum of two columns below a root. -/
def sumOfTwo : Tree :=
  let a : Aggregation := ⟨.sum, "$(a) + $(b)", "r => r[\"a\"] + r[\"b\"]",
    [.ofColumn 2 "a", .ofColumn 3 "b"]⟩
  ((alone "t").apply .empty (.batch [.add 0 ⟨1, "total", .aggregation, .number, "", true, [], some a⟩
    none, .add 1 (.column 2 "a") none, .add 1 (.column 3 "b") none])).tree

theorem wellFormed_sumOfTwo : sumOfTwo.WellFormed :=
  (WellFormed.alone "t").apply .empty _

/-- A column of the sum is taken away, goes to another place in it, or goes to the root, and then the
sum still draws on it. -/
theorem inScope_remove_and_move_sumOfTwo :
    sumOfTwo.InScope ∧ (sumOfTwo.remove .empty 2).tree.InScope ∧
      (∃ r a, (sumOfTwo.remove .empty 2).tree.find? 1 = some r ∧ r.aggregation? = some a ∧
        a.formula = "$(b)" ∧ a.Made .empty) ∧
      (sumOfTwo.move 2 1 none).tree.InScope ∧ ¬ (sumOfTwo.move 2 0 none).tree.InScope := by
  have ht : sumOfTwo.InScope := by decide
  obtain ⟨hremove, hmade, hmove⟩ :=
    inScope_remove_and_move_iff (l := .empty) wellFormed_sumOfTwo ht
  have hunder : sumOfTwo.parent? 2 = some 1 := rfl
  -- The sum draws on the column, and nothing else can, for nothing else is its parent.
  have hdraws : sumOfTwo.Draws 1 2 := by
    refine (draws_iff_of_find? rfl).2 ⟨rfl, _, rfl, ?_, ?_⟩
    · decide
    · decide
  have honly : ∀ p, sumOfTwo.Draws p 2 → p = 1 := fun p hp =>
    wellFormed_sumOfTwo.parent_unique (ht p 2 hp) (wellFormed_sumOfTwo.parent_iff.1 hunder)
  have hcan : sumOfTwo.CanMove 2 0 :=
    ⟨by rfl, by decide, by rfl,
      wellFormed_sumOfTwo.isWithin_eq_false_iff.1 rfl⟩
  have hcanRemove : sumOfTwo.CanRemove 2 := ⟨by rfl, by decide⟩
  refine ⟨ht, hremove 2, ?_, (hmove 2 1 none).2 fun _ => honly, fun hscope => ?_⟩
  · refine ⟨_, _, rfl, rfl, ?_, hmade 2 1 _ _ hcanRemove hunder rfl rfl rfl ?_⟩
    · decide +kernel
    · decide +kernel
  · exact absurd ((hmove 2 0 none).1 hscope hcan 1 hdraws) (by decide)

/-- A tree need not stay in scope when a record is moved. -/
theorem not_forall_inScope_move : ¬ ∀ (l : Library) (t : Tree), t.WellFormed → t.InScope →
    (∀ x, (t.remove l x).tree.InScope) ∧
      ∀ s target place, (t.move s target place).tree.InScope := by
  intro hall
  have ht : sumOfTwo.InScope := by decide
  have hmoved := (hall .empty sumOfTwo wellFormed_sumOfTwo ht).2 2 0 none
  exact absurd hmoved (by decide)

end Tree

end ColumnTree.Outline
