/-
# Which edits are taken back exactly

In a tree that an editor reaches, an edit that does something is made and then taken back, and what
comes of the two is compared with the tree at the beginning (`Tree.back?`).

A move is taken back exactly if the record does not list itself, and a removal if the record is no
aggregation that lacks its columns and its formula.  An addition is taken back exactly if what the new
record adopted stood together at the place where the new record was put, and if the aggregation above,
if there is one, did not list the new record before it was there and had the formula that a removal
leaves (`Aggregation.isCurrent`).
-/
import ColumnTree.Proofs.Outline.Reached
import ColumnTree.Proofs.Outline.TakenBack

namespace ColumnTree.Outline

open Formula

/-! ## Formulas that a removal leaves -/

namespace Aggregation

/-- Is the formula the one that a removal leaves?  That is none without columns that take part, and
any formula if it is custom; otherwise it is the one that is made, or none where none can be made. -/
def isCurrent (l : Library) (a : Aggregation) : Bool :=
  if a.columns.any (·.used) then
    match generate l a.operation a.columns with
    | .unchanged => true
    | .valid formula compiled => a.formula == formula && a.exec == compiled.exec
    | .invalid _ => a.formula == "" && a.exec == ""
  else a.formula == "" && a.exec == ""

variable {l : Library} {name : String} {a : Aggregation} {gone : Record}

theorem eq_self_iff_of_texts (formula exec : String) :
    { a with formula, exec } = a ↔ (a.formula == formula && a.exec == exec) = true := by
  rw [Bool.and_eq_true, beq_iff_eq, beq_iff_eq]
  constructor
  · intro heq
    exact ⟨(congrArg Aggregation.formula heq).symm, (congrArg Aggregation.exec heq).symm⟩
  · rintro ⟨rfl, rfl⟩
    rfl

/-- An aggregation that does not list what is removed stays as it is exactly if its formula is the
one that a removal leaves. -/
theorem afterRemoval_eq_self_iff_of_lists (h : a.lists gone.id = false) :
    (a.afterRemoval l name gone).1 = a ↔ a.isCurrent l = true := by
  unfold afterRemoval isCurrent
  rw [without_eq_self h]
  dsimp only
  cases a.columns.any (·.used) with
  | false => exact eq_self_iff_of_texts "" ""
  | true =>
      cases generate l a.operation a.columns with
      | unchanged => simp
      | valid formula compiled => exact eq_self_iff_of_texts formula compiled.exec
      | invalid _ => exact eq_self_iff_of_texts "" ""

/-- Only what is not listed can leave an aggregation as it is. -/
theorem lists_of_afterRemoval_eq_self (h : (a.afterRemoval l name gone).1 = a) :
    a.lists gone.id = false := by
  have hcolumns := congrArg Aggregation.columns h
  rw [columns_afterRemoval] at hcolumns
  rw [lists, ← hcolumns]
  exact a.lists_without gone.id

theorem afterRemoval_eq_self_iff :
    (a.afterRemoval l name gone).1 = a ↔ a.lists gone.id = false ∧ a.isCurrent l = true := by
  constructor
  · intro h
    have hlists := lists_of_afterRemoval_eq_self h
    exact ⟨hlists, (afterRemoval_eq_self_iff_of_lists hlists).1 h⟩
  · rintro ⟨hlists, hcurrent⟩
    exact (afterRemoval_eq_self_iff_of_lists hlists).2 hcurrent

end Aggregation

namespace Record

variable {r : Record}

theorem unlisting_eq_self_iff {id : RecordId} :
    r.unlisting id = r ↔ ∀ a, r.aggregation? = some a → a.lists id = false := by
  constructor
  · intro heq a ha
    rw [← heq] at ha
    obtain ⟨b, -, rfl⟩ := Option.map_eq_some_iff.1 ha
    exact b.lists_without id
  · exact unlisting_eq_self

theorem completed_eq_self_iff :
    r.completed = r ↔ (r.kind = .aggregation → r.aggregation? ≠ none) := by
  constructor
  · intro heq hk hnone
    have hsome : r.completed.aggregation? = some .standard := by
      rw [completed, if_pos ⟨hk, by rw [hnone]; rfl⟩]
    rw [heq, hnone] at hsome
    cases hsome
  · exact completed_eq_self

theorem following_eq_self_iff {l : Library} {gone : Record} :
    r.following l gone = r ↔ ∀ a, r.kind = .aggregation → r.aggregation? = some a →
      a.lists gone.id = false ∧ a.isCurrent l = true := by
  by_cases hbears : r.kind = .aggregation ∧ ∃ a, r.aggregation? = some a
  · obtain ⟨hk, a, ha⟩ := hbears
    rw [following_of_aggregation? hk ha]
    constructor
    · intro heq b _ hb
      obtain rfl := Option.some.inj (ha.symm.trans hb)
      have := congrArg Record.aggregation? heq
      rw [ha] at this
      exact Aggregation.afterRemoval_eq_self_iff.1 (Option.some.inj this)
    · intro h
      rw [Aggregation.afterRemoval_eq_self_iff.2 (h a hk ha), ← ha]
  · refine iff_of_true (following_eq_self (fun hk => ?_) l gone) fun a hk ha => ?_
    · exact Option.eq_none_iff_forall_ne_some.2 fun a ha => hbears ⟨hk, a, ha⟩
    · exact absurd ⟨hk, a, ha⟩ hbears

/-- A record with other children is the same after a removal exactly if its children are those it had
and its formula stays. -/
theorem following_eq_iff_of_children {l : Library} {gone : Record} {cs : List RecordId} :
    ({ r with children := cs } : Record).following l gone = r ↔
      cs = r.children ∧ r.following l gone = r := by
  constructor
  · intro heq
    have hcs := congrArg Record.children heq
    rw [children_following] at hcs
    dsimp only at hcs
    subst hcs
    exact ⟨rfl, heq⟩
  · rintro ⟨rfl, heq⟩
    exact heq

end Record

theorem mem_insertAllAt {place : Option UInt64} {ids l : List RecordId} {c : RecordId} (h : c ∈ ids) :
    c ∈ insertAllAt place ids l := by
  cases place <;> simp [insertAllAt, h]

namespace Tree

/-- The tree after a command and the one that takes it back, if the command does something. -/
def back? (l : Library) (c : Command) (t : Tree) : Option Tree :=
  (t.apply l c).inverse?.map fun inverse => ((t.apply l c).tree.apply l inverse).tree

theorem back?_of_inverse? {l : Library} {c inverse : Command} {t : Tree}
    (h : (t.apply l c).inverse? = some inverse) :
    t.back? l c = some ((t.apply l c).tree.apply l inverse).tree := by
  rw [back?, h, Option.map_some]

/-- A tree in which another record stands under one number is the same tree exactly if that is the
same record. -/
theorem eq_iff_of_find? {t t' : Tree} {x : RecordId} {r r' : Record} (hr : t.find? x = some r)
    (hfind : ∀ q, t'.find? q = if q = x then some r' else t.find? q)
    (hparent : ∀ y, t'.parent? y = t.parent? y) : t' = t ↔ r' = r := by
  constructor
  · rintro rfl
    exact Option.some.inj (((hfind x).trans (if_pos rfl)).symm.trans hr)
  · rintro rfl
    refine ext_find? (fun q => ?_) hparent
    rw [hfind]
    split
    · next hq => rw [hq, hr]
    · rfl

/-- A new record leaves a tree as it was exactly if what it adopted stood together where it was put,
and if the formula above does not follow its leaving. -/
theorem remove_add_eq_iff {t : Tree} (h : t.WellFormed) {parent : RecordId} {r p : Record}
    (hc : t.CanAdd parent r) (place : Option UInt64) (l : Library) (hp : t.find? parent = some p) :
    ((t.add parent r place).tree.remove l r.id).tree = t ↔
      insertAllAt place (t.adoptees parent r.children)
          (p.children.filter fun c => !(t.adoptees parent r.children).contains c) = p.children ∧
        p.following l r = p := by
  have hfind := find?_remove_add h hc place l hp
  have hparent := parent?_remove_add h hc place l
  have hself := (hfind parent).trans (if_pos rfl)
  rw [← Record.following_eq_iff_of_children]
  constructor
  · intro heq
    rw [heq, hp] at hself
    exact (Option.some.inj hself).symm
  · intro heq
    -- What was adopted stood below the parent already, and so in no other list.
    have hmem : ∀ c ∈ t.adoptees parent r.children, c ∈ t.children parent := by
      intro c hcm
      rw [children_of_find? hp, ← (Record.following_eq_iff_of_children.1 heq).1]
      exact mem_insertAllAt hcm
    refine ext_find? (fun q => ?_) fun x => ?_
    · by_cases hq : q = parent
      · rw [hq, hself, hp]
        exact congrArg some heq
      · rw [(hfind q).trans (if_neg hq)]
        cases hrq : t.find? q with
        | none => rfl
        | some rq =>
            rw [Option.map_some, Record.keeping_eq_self]
            intro c hcq
            rw [← children_of_find? hrq] at hcq
            simpa using fun hcm => hq (h.parent_unique hcq (hmem c hcm))
    · rw [hparent]
      split
      · next hx => rw [h.parent_iff.2 (hmem x hx)]
      · rfl

end Tree

namespace Editor

/-! ## Moves -/

/-- A move that does something is taken back, except that the record that was moved does not list
itself any more. -/
theorem Reached.move_back_eq_iff {e : Editor} (h : e.Reached) {source target : RecordId}
    {place : Option UInt64}
    (heffective : (e.tree.apply e.library (.move source target place)).inverse?.isSome = true) :
    ∃ t' r, e.tree.back? e.library (.move source target place) = some t' ∧
      e.tree.find? source = some r ∧
      (∀ q, t'.find? q = if q = source then some (r.unlisting source) else e.tree.find? q) ∧
      (∀ x, t'.parent? x = e.tree.parent? x) ∧
      (t' = e.tree ↔ ∀ a, r.aggregation? = some a → a.lists source = false) := by
  have hw := h.wellFormed
  rw [Tree.apply] at heffective
  by_cases hc : e.tree.CanMove source target
  · obtain ⟨old, r, hold, hr⟩ := hw.exists_parent_of_move hc
    have hinv := Tree.inverse?_move hw.toLinked hc hold hr place
    have hfind := Tree.find?_movingBack hw hc hold hr place e.library
    have hparent := Tree.parent?_movingBack hw hc hold hr place e.library
    rw [← Tree.apply] at hinv
    rw [← Tree.apply] at hfind hparent
    refine ⟨_, r, Tree.back?_of_inverse? hinv, hr, hfind, hparent, ?_⟩
    rw [← Record.unlisting_eq_self_iff]
    exact Tree.eq_iff_of_find? hr hfind hparent
  · rw [hw.move_of_not hc] at heffective
    cases heffective

/-- A sum goes behind its neighbour and back. -/
theorem Reached.move_back_eq_iff_sum :
    let a : Aggregation := ⟨.sum, "$(a)", "r => r[\"a\"]", [.ofColumn 2 "a"]⟩
    let e := ((ofTree .empty (.alone "t")).apply (.batch [
      .add 0 ⟨1, "total", .aggregation, .number, "", true, [], some a⟩ none,
      .add 1 (.column 2 "a") none, .add 0 (.column 3 "b") none])).1
    e.Reached ∧ e.tree.back? e.library (.move 1 0 none) = some e.tree := by
  intro a e
  have h : e.Reached := .apply _ (.alone .empty "t")
  have heffective : (e.tree.apply e.library (.move 1 0 none)).inverse?.isSome = true := by
    rfl
  obtain ⟨t', r, hback, hr, -, -, hiff⟩ := Reached.move_back_eq_iff h heffective
  have heq : t' = e.tree := by
    refine hiff.2 fun b hb => ?_
    have hlists : (e.tree.find? 1).bind (·.aggregation?.map (·.lists 1)) = some false := by
      rfl
    rw [hr, Option.bind_some, hb] at hlists
    exact Option.some.inj hlists
  exact ⟨h, hback.trans (congrArg some heq)⟩

/-- An aggregation that lists itself does not do so any more when it has been moved and moved back. -/
theorem not_forall_move_back_eq : ¬ ∀ e : Editor, e.Reached → ∀ source target place,
    (e.tree.apply e.library (.move source target place)).inverse?.isSome = true →
      e.tree.back? e.library (.move source target place) = some e.tree := by
  intro hall
  -- The inverse lists the record again before it goes back, and the way back takes it off once more.
  obtain ⟨e, h, inverse, hinv, hback, hlists⟩ : ∃ e : Editor, e.Reached ∧ ∃ inverse,
      (e.tree.apply e.library (.move 1 0 none)).inverse? = some inverse ∧
      (((e.tree.apply e.library (.move 1 0 none)).tree.apply e.library inverse).tree.find? 1).bind
        (·.aggregation?.map (·.lists 1)) = some false ∧
      (e.tree.find? 1).bind (·.aggregation?.map (·.lists 1)) = some true :=
    ⟨((ofTree .empty (.alone "t")).apply (.add 0 ⟨1, "total", .aggregation, .number, "", true, [],
      some ⟨.sum, "", "", [.ofColumn 1 "total"]⟩⟩ none)).1, .apply _ (.alone .empty "t"),
      .batch [.update 1 (.ofAggregation (some ⟨.sum, "", "", [.ofColumn 1 "total"]⟩)),
        .move 1 0 (some 0)], by rfl, by rfl, by rfl⟩
  have heq := hall e h 1 0 none (by rw [hinv]; rfl)
  rw [Tree.back?_of_inverse? hinv, Option.some.injEq] at heq
  rw [heq, hlists] at hback
  cases hback

/-! ## Removals -/

/-- A removal is taken back, except that an aggregation without columns and formula comes back with
the standard ones. -/
theorem Reached.remove_back_eq_iff {e : Editor} (h : e.Reached) {x : RecordId}
    (hx : e.tree.contains x = true) (hne : x ≠ rootId) :
    ∃ t' r, e.tree.back? e.library (.remove x) = some t' ∧
      e.tree.find? x = some r ∧
      (∀ q, t'.find? q = if q = x then some r.completed else e.tree.find? q) ∧
      (∀ y, t'.parent? y = e.tree.parent? y) ∧
      (t' = e.tree ↔ (r.kind = .aggregation → r.aggregation? ≠ none)) := by
  have hw := h.wellFormed
  obtain ⟨p, r, rp, hp, hr, hrp, hid⟩ := hw.exists_parent_record ⟨hx, hne⟩
  have hpx : p ≠ x := (hw.ne_of_mem (hw.parent_iff.1 hp)).symm
  have hinv := Tree.inverse?_remove (l := e.library) hp hr hrp hid hne hpx
  have hfind := Tree.find?_restoring (l := e.library) hw hp hr hrp hid hne
  have hparent := Tree.parent?_restoring (l := e.library) hw hp hr hrp hid hne
  rw [← Tree.apply] at hinv
  rw [← Tree.apply] at hfind hparent
  refine ⟨_, r, Tree.back?_of_inverse? hinv, hr, hfind, hparent, ?_⟩
  rw [← Record.completed_eq_self_iff]
  exact Tree.eq_iff_of_find? hr hfind hparent

/-- A sum of a column is removed and comes back with its child. -/
theorem Reached.remove_back_eq_iff_sum :
    let a : Aggregation := ⟨.sum, "$(a)", "r => r[\"a\"]", [.ofColumn 2 "a"]⟩
    let e := ((ofTree .empty (.alone "t")).apply (.batch [
      .add 0 ⟨1, "total", .aggregation, .number, "", true, [], some a⟩ none,
      .add 1 (.column 2 "a") none, .add 0 (.column 3 "b") none])).1
    e.Reached ∧ e.tree.back? e.library (.remove 1) = some e.tree := by
  intro a e
  have h : e.Reached := .apply _ (.alone .empty "t")
  have hmem : e.tree.contains 1 = true := by rfl
  obtain ⟨t', r, hback, hr, -, -, hiff⟩ := Reached.remove_back_eq_iff h hmem (by decide)
  have heq : t' = e.tree := by
    refine hiff.2 fun _ hnone => ?_
    have hsome : (e.tree.find? 1).map (·.aggregation?.isSome) = some true := by rfl
    rw [hr, Option.map_some, hnone] at hsome
    cases hsome
  exact ⟨h, hback.trans (congrArg some heq)⟩

/-- A column that has been made an aggregation and is removed comes back with a formula and columns,
empty ones. -/
theorem not_forall_remove_back_eq : ¬ ∀ e : Editor, e.Reached → ∀ x,
    e.tree.contains x = true → x ≠ rootId →
      e.tree.back? e.library (.remove x) = some e.tree := by
  intro hall
  obtain ⟨e, h, hmem, hback, hnone⟩ : ∃ e : Editor, e.Reached ∧ e.tree.contains 1 = true ∧
      ((e.tree.back? e.library (.remove 1)).bind (·.find? 1)).map (·.aggregation?.isSome) =
        some true ∧
      (e.tree.find? 1).map (·.aggregation?.isSome) = some false :=
    ⟨((ofTree .empty (.alone "t")).apply (.batch [.add 0 (.column 1 "a") none,
      .update 1 { Patch.empty with kind := some .aggregation }])).1, .apply _ (.alone .empty "t"),
      by rfl, by rfl, by rfl⟩
  rw [hall e h 1 hmem (by decide), Option.bind_some, hnone] at hback
  cases hback

/-! ## Additions -/

/-- An addition is taken back, except that what the new record had adopted stands where the new record
stood and nowhere else, and that the aggregation above has followed a removal. -/
theorem Reached.add_back_eq_iff {e : Editor} (h : e.Reached) {parent : RecordId} {r : Record}
    {place : Option UInt64}
    (heffective : (e.tree.apply e.library (.add parent r place)).inverse?.isSome = true) :
    let adopted := e.tree.adoptees parent r.children
    let kept := Record.keeping fun c => !adopted.contains c
    ∃ t' p, e.tree.back? e.library (.add parent r place) = some t' ∧
      e.tree.find? parent = some p ∧
      t'.find? parent = some (((kept p).insertingAll place adopted).following e.library r) ∧
      (∀ q, q ≠ parent → t'.find? q = (e.tree.find? q).map kept) ∧
      (∀ x, t'.parent? x = if x ∈ adopted then some parent else e.tree.parent? x) ∧
      (t' = e.tree ↔ insertAllAt place adopted (kept p).children = p.children ∧
        ∀ a, p.kind = .aggregation → p.aggregation? = some a →
          a.lists r.id = false ∧ a.isCurrent e.library = true) := by
  intro adopted kept
  have hw := h.wellFormed
  rw [Tree.apply] at heffective
  by_cases hc : e.tree.CanAdd parent r
  · obtain ⟨p, hp⟩ := Tree.contains_iff.1 hc.parent_mem
    have hinv : (e.tree.apply e.library (.add parent r place)).inverse? = some (.remove r.id) := by
      rw [Tree.apply]
      exact hc.inverse? place
    have hfind := Tree.find?_remove_add hw hc place e.library hp
    have hparent := Tree.parent?_remove_add hw hc place e.library
    refine ⟨_, p, Tree.back?_of_inverse? hinv, hp, ?_, fun q hq => ?_, ?_, ?_⟩
    all_goals rw [Tree.apply, Tree.apply]
    · exact (hfind parent).trans (if_pos rfl)
    · exact (hfind q).trans (if_neg hq)
    · exact hparent
    · rw [← Record.following_eq_self_iff]
      exact Tree.remove_add_eq_iff hw hc place e.library hp
  · rw [Tree.add_of_not hc] at heffective
    cases heffective

/-- A record is put between the columns of a sum and takes one of them over. -/
theorem Reached.add_back_eq_iff_sum :
    let a : Aggregation := ⟨.sum, "$(a)", "r => r[\"a\"]", [.ofColumn 2 "a"]⟩
    let e := ((ofTree .empty (.alone "t")).apply (.batch [
      .add 0 ⟨1, "total", .aggregation, .number, "", true, [], some a⟩ none,
      .add 1 (.column 2 "a") none, .add 1 (.column 3 "b") none])).1
    let r : Record := { Record.column 4 "c" with children := [3] }
    e.Reached ∧ e.tree.back? e.library (.add 1 r (some 1)) = some e.tree := by
  intro a e r
  have h : e.Reached := .apply _ (.alone .empty "t")
  have heffective : (e.tree.apply e.library (.add 1 r (some 1))).inverse?.isSome = true := by
    rfl
  have hfind : e.tree.find? 1 =
      some ⟨1, "total", .aggregation, .number, "", true, [2, 3], some a⟩ := by
    rfl
  have hcurrent : a.isCurrent e.library = true := by
    decide +kernel
  obtain ⟨t', p, hback, hp, -, -, -, hiff⟩ := Reached.add_back_eq_iff h heffective
  obtain rfl := Option.some.inj (hfind.symm.trans hp)
  have heq : t' = e.tree := by
    refine hiff.2 ⟨by decide +kernel, fun b _ hb => ?_⟩
    obtain rfl := Option.some.inj hb
    exact ⟨rfl, hcurrent⟩
  exact ⟨h, hback.trans (congrArg some heq)⟩

/-- What a new record has adopted does not go back to where it was. -/
theorem not_forall_add_back_eq : ¬ ∀ e : Editor, e.Reached → ∀ parent r place,
    (e.tree.apply e.library (.add parent r place)).inverse?.isSome = true →
      e.tree.back? e.library (.add parent r place) = some e.tree := by
  intro hall
  obtain ⟨e, h, r, hinv, hback, hunder⟩ : ∃ e : Editor, e.Reached ∧ ∃ r : Record,
      (e.tree.apply e.library (.add 0 r none)).inverse? = some (.remove 3) ∧
      ((e.tree.apply e.library (.add 0 r none)).tree.apply e.library (.remove 3)).tree.parent? 2 =
        some 0 ∧ e.tree.parent? 2 = some 1 :=
    ⟨((ofTree .empty (.alone "t")).apply (.batch [.add 0 (.column 1 "a") none,
      .add 1 (.column 2 "b") none])).1, .apply _ (.alone .empty "t"),
      { Record.column 3 "c" with children := [2] }, by rfl, by rfl, by rfl⟩
  have heq := hall e h 0 r none (by rw [hinv]; rfl)
  rw [Tree.back?_of_inverse? hinv, Option.some.injEq] at heq
  rw [heq, hunder] at hback
  cases hback

end Editor

end ColumnTree.Outline
