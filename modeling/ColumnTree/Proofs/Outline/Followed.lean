/-
# Aggregations when a child leaves

A removal changes one aggregation, that of the parent, and `Follows` says what becomes of it and which
warning there is.  The list loses the column in every case.  A list of which nothing takes part any
more clears the formula; a custom formula stays; the others are made again, or cleared when they
cannot be.

A custom formula that still reads the column is stale, and whether it does is not asked of the reader:
there is a warning if the column was listed or the formula has the reference to it as it would be made.
The reader takes blanks off a name, so that a formula may refer to the column in other ways, and those
references go unnoticed (`stale_unnoticed_iff`).
-/
import ColumnTree.Proofs.Formula.Declared
import ColumnTree.Proofs.Formula.Mentioned
import ColumnTree.Proofs.Outline.Reached
import ColumnTree.Proofs.Outline.TakenBack

namespace ColumnTree.Outline

open Formula

attribute [ext] Aggregation

namespace Aggregation

/-- What becomes of the aggregation of a record of this name when a child leaves, and the
warnings. -/
structure Follows (l : Library) (name : String) (gone : Record) (before after : Aggregation)
    (ws : List Warning) : Prop where
  operation_eq : after.operation = before.operation
  columns_eq : after.columns = before.columns.filter fun c => c.id != gone.id
  /-- Nothing takes part. -/
  idle : ¬ after.Active → after.formula = "" ∧ after.exec = "" ∧ ws = [.cleared name]
  custom : after.Active → before.operation = .custom →
    after.formula = before.formula ∧ after.exec = before.exec ∧
      ws = if before.lists gone.id ∨ reference gone.name <:+: before.formula.toList
        then [.stale name gone.name] else []
  /-- The formula that is made compiles. -/
  made : after.Active → before.operation ≠ .custom →
    ∀ text e, sourceOf before.operation after.columns = some text → compileText l text = .ok e →
      after.formula = text ∧ after.exec = e.exec ∧ ws = []
  /-- No formula is made that compiles. -/
  notMade : after.Active → before.operation ≠ .custom →
    (∀ text e, sourceOf before.operation after.columns = some text → compileText l text ≠ .ok e) →
      after.formula = "" ∧ after.exec = "" ∧ ∃ reason, ws = [.notMade name reason]

theorem follows_afterRemoval {l : Library} {name : String} {a : Aggregation} {gone : Record} :
    a.Follows l name gone (a.afterRemoval l name gone).1 (a.afterRemoval l name gone).2 := by
  rcases a.afterRemoval_cases with ⟨hidle, heq⟩ |
    ⟨h, ⟨hop, heq⟩ | ⟨formula, compiled, hgenerate, heq⟩ | ⟨reason, hgenerate, heq⟩⟩
  all_goals rw [heq]
  · exact ⟨rfl, rfl, fun _ => ⟨rfl, rfl, rfl⟩, fun h => absurd h hidle, fun h => absurd h hidle,
      fun h => absurd h hidle⟩
  · refine ⟨rfl, rfl, absurd h, fun _ _ => ⟨rfl, rfl, ?_⟩, ?_, ?_⟩
    · simp only [Bool.or_eq_true, Text.occurs_iff_isPart]
    · exact fun _ hno => absurd hop hno
    · exact fun _ hno => absurd hop hno
  · obtain ⟨hsource, hcompile⟩ := generate_eq_valid_iff.1 hgenerate
    refine ⟨rfl, rfl, absurd h, ?_, ?_, ?_⟩
    · intro _ hop
      cases hgenerate.symm.trans (generate_eq_unchanged_iff.2 hop)
    · intro _ _ text e hsource' hcompile'
      obtain rfl := Option.some.inj (hsource.symm.trans hsource')
      obtain rfl := Except.ok.inj (hcompile.symm.trans hcompile')
      exact ⟨rfl, rfl, rfl⟩
    · intro _ _ hnone
      exact absurd hcompile (hnone _ _ hsource)
  · refine ⟨rfl, rfl, absurd h, ?_, ?_, fun _ _ _ => ⟨rfl, rfl, reason, rfl⟩⟩
    · intro _ hop
      cases hgenerate.symm.trans (generate_eq_unchanged_iff.2 hop)
    · intro _ _ text e hsource hcompile
      cases hgenerate.symm.trans (generate_eq_valid_iff.2 ⟨hsource, hcompile⟩)

end Aggregation

namespace Tree

section Followed

variable {t : Tree} (h : t.WellFormed) (l : Library) {x p : RecordId} {r : Record}
  {a : Aggregation} (hp : t.parent? x = some p) (hr : t.find? p = some r)
  (hk : r.kind = .aggregation) (ha : r.aggregation? = some a)

include h hp

theorem WellFormed.canRemove_of_parent? : t.CanRemove x := by
  have hmem := h.parent_iff.1 hp
  refine ⟨h.listed hmem, ?_⟩
  rintro rfl
  exact h.root_unlisted p hmem

/-- Of the records that are left, a removal changes only the parent. -/
theorem WellFormed.find?_removed_of_ne {q : RecordId} (hq : q ≠ p) :
    (t.remove l x).tree.find? q = if q = x then none else t.find? q := by
  have hc := h.canRemove_of_parent? hp
  obtain ⟨p', gone, r', hp', hx, hr', hid⟩ := h.exists_parent_record hc
  obtain rfl := Option.some.inj (hp.symm.trans hp')
  rw [find?_removed h.toLinked hp hx hr' hid hc.ne_root, if_neg hq]

include hr hk ha

/-- When a child leaves an aggregation, its own children stand in its place, and the aggregation
follows. -/
theorem WellFormed.follows_removed :
    ∃ gone after, t.find? x = some gone ∧ gone.id = x ∧
      (t.remove l x).tree.find? p =
        some { r.splicing x gone.children with aggregation? := some after } ∧
      a.Follows l r.name gone after (t.remove l x).warnings := by
  have hc := h.canRemove_of_parent? hp
  obtain ⟨p', gone, r', hp', hx, hr', hid⟩ := h.exists_parent_record hc
  obtain rfl := Option.some.inj (hp.symm.trans hp')
  obtain rfl := Option.some.inj (hr.symm.trans hr')
  have hpx : p ≠ x := (h.ne_of_mem (h.parent_iff.1 hp)).symm
  refine ⟨gone, (a.afterRemoval l r.name gone).1, hx, hid, ?_, ?_⟩
  · rw [find?_removed h.toLinked hp hx hr hid hc.ne_root, if_neg hpx, if_pos rfl,
      Record.following_of_aggregation? (r := r.splicing x gone.children) hk ha]
    rfl
  · have hwarnings : (t.remove l x).warnings = (a.afterRemoval l r.name gone).2 := by
      rw [warnings_remove hp hx hr hid hc.ne_root hpx, followRemoval, if_pos hk, ha]
      rfl
    rw [hwarnings]
    exact Aggregation.follows_afterRemoval

end Followed

end Tree

namespace Editor

/-- In every tree that an editor reaches, when a child leaves an aggregation, the aggregation keeps
its operation and loses the column from its list.  If nothing is left that takes part, the formula is
cleared, with one warning; else a custom formula stays; and any other is made again, or, if no formula
that compiles can be made, cleared with one warning.  The other records stay. -/
theorem Reached.parent_follows {e : Editor} (h : e.Reached) (l : Library) {x p : RecordId}
    {r : Record} {a : Aggregation} (hp : e.tree.parent? x = some p)
    (hr : e.tree.find? p = some r) (hk : r.kind = .aggregation) (ha : r.aggregation? = some a) :
    ∃ gone after, e.tree.find? x = some gone ∧ gone.id = x ∧
      (e.tree.remove l x).tree.find? p =
        some { r.splicing x gone.children with aggregation? := some after } ∧
      a.Follows l r.name gone after (e.tree.remove l x).warnings ∧
      ∀ q, q ≠ p → (e.tree.remove l x).tree.find? q = if q = x then none else e.tree.find? q := by
  obtain ⟨gone, after, hgone, hid, hfind, hfollows⟩ := h.wellFormed.follows_removed l hp hr hk ha
  refine ⟨gone, after, hgone, hid, hfind, hfollows, fun q hq => ?_⟩
  exact h.wellFormed.find?_removed_of_ne l hp hq

/-- An aggregation of two columns below a root; below the first column there is a third one. -/
def totalOf (a : Aggregation) : Editor :=
  ((ofTree .empty (.alone "t")).apply (.batch [.add 0 ⟨1, "total", .aggregation, .number, "", true,
    [], some a⟩ none, .add 1 (.column 2 "a") none, .add 1 (.column 3 "b") none,
    .add 2 (.column 4 "c") none])).1

section TotalOf

variable (a : Aggregation)

theorem reached_totalOf : (totalOf a).Reached :=
  .apply _ (.alone ..)

theorem find?_totalOf : (totalOf a).tree.find? 1 =
    some ⟨1, "total", .aggregation, .number, "", true, [2, 3], some a⟩ := rfl

theorem find?_totalOf_child : (totalOf a).tree.find? 2 =
    some { Record.column 2 "a" with children := [4] } := rfl

theorem mem_children_totalOf : 2 ∈ (totalOf a).tree.children 1 := by
  rw [Tree.children_of_find? (find?_totalOf a)]
  exact List.mem_cons_self ..

end TotalOf

/-- The column is listed twice, once as taking part and once not; both entries go with it, and the
column below it takes its place among the children. -/
theorem parent_follows_twice :
    let a : Aggregation := ⟨.sum, "$(a) + $(b)", "r => r[\"a\"] + r[\"b\"]",
      [⟨2, "a", 1, true⟩, ⟨3, "b", 2, true⟩, ⟨2, "a", 1, false⟩]⟩
    let e := totalOf a
    e.Reached ∧ e.tree.parent? 2 = some 1 ∧
      e.tree.find? 1 = some ⟨1, "total", .aggregation, .number, "", true, [2, 3], some a⟩ ∧
      (e.tree.remove .empty 2).tree.find? 1 = some ⟨1, "total", .aggregation, .number, "", true,
        [4, 3], some ⟨.sum, "$(b)", "r => r[\"b\"]", [⟨3, "b", 2, true⟩]⟩⟩ ∧
      (e.tree.remove .empty 2).warnings = [] := by
  intro a e
  have hreached : e.Reached := reached_totalOf a
  have hparent := hreached.wellFormed.parent_iff.2 (mem_children_totalOf a)
  obtain ⟨gone, after, hgone, -, hfind, hfollows, -⟩ :=
    Reached.parent_follows hreached .empty hparent (find?_totalOf a) rfl rfl
  obtain rfl := Option.some.inj ((find?_totalOf_child a).symm.trans hgone)
  have hcolumns : after.columns = [⟨3, "b", 2, true⟩] := hfollows.columns_eq
  have hactive : after.Active := by
    refine ⟨⟨3, "b", 2, true⟩, ?_, rfl⟩
    rw [hcolumns]
    exact List.mem_singleton.2 rfl
  have hsource : sourceOf .sum after.columns = some "$(b)" := by
    rw [hcolumns]
    rfl
  have hcompile : compileText .empty "$(b)" = .ok (.column "b") := by cbv
  obtain ⟨hformula, hexec, hwarnings⟩ := hfollows.made hactive (by decide) _ _ hsource hcompile
  have hafter : after = ⟨.sum, "$(b)", "r => r[\"b\"]", [⟨3, "b", 2, true⟩]⟩ :=
    Aggregation.ext hfollows.operation_eq hformula hexec hcolumns
  refine ⟨hreached, hparent, find?_totalOf a, ?_, hwarnings⟩
  rw [hfind, hafter]
  rfl

/-! ## Stale formulas -/

/-- A column that a custom formula reads leaves.  The formula refers to it, and there is no warning
just if other columns take part, the column was not listed, and in every reference to it there are
blanks around the name. -/
theorem Reached.stale_unnoticed_iff {e : Editor} (h : e.Reached) (l : Library) {p c : RecordId}
    {r gone : Record} {a : Aggregation} {ast : Ast} (hr : e.tree.find? p = some r)
    (hk : r.kind = .aggregation) (ha : r.aggregation? = some a) (hop : a.operation = .custom)
    (hparse : parse a.formula = .ok ast) (hc : c ∈ e.tree.children p)
    (hgone : e.tree.find? c = some gone) (hname : gone.name ∈ ast.columns) :
    (∃ s, Mentions a.formula.toList gone.name s) ∧
      ((e.tree.remove l c).warnings = [] ↔ (∃ d ∈ a.columns, d.id ≠ c ∧ d.used = true) ∧
        a.lists c = false ∧ ∀ s, Mentions a.formula.toList gone.name s → s ≠ gone.name) := by
  have hp := h.wellFormed.parent_iff.2 hc
  obtain ⟨gone', after, hgone', hid, -, hfollows⟩ := h.wellFormed.follows_removed l hp hr hk ha
  obtain rfl := Option.some.inj (hgone.symm.trans hgone')
  obtain ⟨s, hs⟩ := exists_mentions_of_parse hparse hname
  have hactive : after.Active ↔ ∃ d ∈ a.columns, d.id ≠ c ∧ d.used = true := by
    simp [Aggregation.Active, hfollows.columns_eq, hid, and_assoc]
  have hblanks : (∀ s, Mentions a.formula.toList gone.name s → s ≠ gone.name) ↔
      ¬ reference gone.name <:+: a.formula.toList := by
    rw [← hs.self_iff]
    exact ⟨fun hall hself => hall _ hself rfl, fun hno s' hs' heq => hno (heq ▸ hs')⟩
  refine ⟨⟨s, hs⟩, ?_⟩
  rw [← hactive, hblanks]
  by_cases hA : after.Active
  · obtain ⟨-, -, hwarnings⟩ := hfollows.custom hA hop
    rw [hwarnings, hid]
    simp [hA]
  · obtain ⟨-, -, hwarnings⟩ := hfollows.idle hA
    simp [hA, hwarnings]

/-- A sum whose first reference has blanks in it. -/
def blankSum : Aggregation :=
  ⟨.custom, "$( a ) + $(b)", "r => r[\"a\"] + r[\"b\"]", [.ofColumn 3 "b"]⟩

theorem exists_parse_blankSum :
    ∃ ast, parse blankSum.formula = .ok ast ∧ "a" ∈ ast.columns := by
  obtain ⟨ast, hparse, -, hcolumns⟩ :=
    exists_parse_of_names blankSum.formula [] ["a", "b"] (by decide +kernel)
  refine ⟨ast, hparse, ?_⟩
  rw [hcolumns]
  exact List.mem_cons_self ..

/-- The formula reads a column that is not listed, and there are blanks in the only reference to
it. -/
theorem stale_unnoticed_blankSum :
    let e := totalOf blankSum
    e.Reached ∧ blankSum.operation = .custom ∧
      (∃ ast, parse blankSum.formula = .ok ast ∧ "a" ∈ ast.columns) ∧
      e.tree.find? 1 = some ⟨1, "total", .aggregation, .number, "", true, [2, 3], some blankSum⟩ ∧
      2 ∈ e.tree.children 1 ∧
      e.tree.find? 2 = some { Record.column 2 "a" with children := [4] } ∧
      (∃ s, Mentions blankSum.formula.toList "a" s) ∧ (e.tree.remove .empty 2).warnings = [] := by
  intro e
  have hreached : e.Reached := reached_totalOf blankSum
  obtain ⟨ast, hparse, hmem⟩ := exists_parse_blankSum
  obtain ⟨hmentions, hiff⟩ := Reached.stale_unnoticed_iff hreached .empty (find?_totalOf blankSum)
    rfl rfl rfl hparse (mem_children_totalOf blankSum) (find?_totalOf_child blankSum) hmem
  refine ⟨hreached, rfl, ⟨ast, hparse, hmem⟩, find?_totalOf blankSum,
    mem_children_totalOf blankSum, find?_totalOf_child blankSum, hmentions, hiff.2 ⟨?_, rfl, ?_⟩⟩
  · exact ⟨.ofColumn 3 "b", List.mem_singleton.2 rfl, by decide, rfl⟩
  · rintro s ⟨-, hs⟩ rfl
    exact absurd hs (by decide)

/-- A custom formula that reads a column which leaves can be stale without a warning. -/
theorem not_forall_stale_noticed : ¬ ∀ (e : Editor), e.Reached → ∀ (l : Library) (p c : RecordId)
    (r gone : Record) (a : Aggregation) (ast : Ast), e.tree.find? p = some r →
    r.kind = .aggregation → r.aggregation? = some a → a.operation = .custom →
    parse a.formula = .ok ast → c ∈ e.tree.children p → e.tree.find? c = some gone →
    gone.name ∈ ast.columns → (e.tree.remove l c).warnings ≠ [] := by
  intro hall
  obtain ⟨ast, hparse, hmem⟩ := exists_parse_blankSum
  have hwarns := hall (totalOf blankSum) (reached_totalOf blankSum) .empty 1 2 _ _ _ ast
    (find?_totalOf blankSum) rfl rfl rfl hparse (mem_children_totalOf blankSum)
    (find?_totalOf_child blankSum) hmem
  exact hwarns rfl

end Editor

end ColumnTree.Outline
