/-
# Where a move takes a record

A move takes one record and all that is below it to another place, and nothing else is seen of it: the
view of the record stays, and so does the view of everything else (`View.cut`).  Among the children of
the target it stands at the place that was asked for, or at the end if that is farther.  Of the
records only the lists of two change, and the one that was moved no longer lists itself.
-/
import ColumnTree.Proofs.Outline.Effective
import ColumnTree.Proofs.Outline.Reached
import ColumnTree.Proofs.Outline.Viewed

namespace ColumnTree.Outline

open Formula

/-! ## Views without a part -/

namespace View

/-- The number of the record at the top. -/
def top : View → RecordId
  | node id .. => id

mutual

/-- The view without a record and all that is below it; the top stays in any case. -/
def cut (id : RecordId) : View → View
  | node top name children shown kind formula =>
    node top name (cutAll id children) shown kind formula

/-- Several views side by side without a record and all that is below it. -/
def cutAll (id : RecordId) : List View → List View
  | [] => []
  | v :: rest => if v.top = id then cutAll id rest else cut id v :: cutAll id rest

end

theorem cutAll_eq (id : RecordId) (vs : List View) :
    cutAll id vs = (vs.filter (·.top != id)).map (cut id) := by
  induction vs with
  | nil => rfl
  | cons v rest ih => by_cases h : v.top = id <;> simp [cutAll, h, ih]

end View

namespace Record

theorem cut_viewOver (r : Record) (id : RecordId) (vs : List View) :
    (r.viewOver vs).cut id = r.viewOver (View.cutAll id vs) := by
  rw [viewOver, View.cut]
  rfl

/-- A record that no longer lists itself is shown as before. -/
theorem viewOver_unlisting (r : Record) (id : RecordId) :
    (r.unlisting id).viewOver = r.viewOver := by
  have hformula : (r.unlisting id).formula = r.formula := by
    unfold formula unlisting
    cases r.aggregation? <;> rfl
  unfold viewOver
  rw [hformula]
  rfl

end Record

namespace Tree

theorem WellFormed.top_of_view? {t : Tree} (h : t.WellFormed) {x : RecordId} {v : View}
    (hv : t.view? x = some v) : v.top = x := by
  rw [h.view?_eq] at hv
  obtain ⟨r, hr, rfl⟩ := Option.map_eq_some_iff.1 hv
  exact h.named hr

/-- The view of a record without a part is made of the children but for that. -/
theorem WellFormed.cut_view? {t : Tree} (h : t.WellFormed) (s x : RecordId) :
    (t.view? x).map (View.cut s) = (t.find? x).map fun r => r.viewOver
      (((t.children x).filter (· != s)).filterMap fun c => (t.view? c).map (View.cut s)) := by
  have hcs : ∀ cs : List RecordId, View.cutAll s (cs.filterMap t.view?) =
      (cs.filter (· != s)).filterMap fun c => (t.view? c).map (View.cut s) := by
    intro cs
    rw [View.cutAll_eq, List.filter_filterMap, List.map_filterMap, List.filterMap_filter]
    refine List.filterMap_congr fun c _ => ?_
    cases hv : t.view? c with
    | none => simp
    | some v => by_cases hc : c = s <;> simp [h.top_of_view? hv, hc]
  rw [h.view?_eq, Option.map_map]
  congr 1
  funext r
  rw [Function.comp, Record.cut_viewOver, hcs]

section Move

variable {t : Tree} (h : t.WellFormed) {s target : RecordId} (hc : t.CanMove s target)
  (place : Option UInt64)

include h hc

/-- What becomes of each record. -/
theorem find?_move_eq_map {old : RecordId} (hold : t.parent? s = some old) (q : RecordId) :
    let others := (t.children target).filter (· != s)
    (t.move s target place).tree.find? q = (t.find? q).map fun r => { r with
      children := if q = target then others.insertIdx (position place others.length) s
        else if q = old then r.children.filter (· != s) else r.children
      aggregation? := if q = s then r.aggregation?.map (·.without s) else r.aggregation? } := by
  intro others
  obtain ⟨rs, hrs⟩ := contains_iff.1 hc.mem
  rw [find?_move h.toLinked hc hold hrs]
  cases hr : t.find? q with
  | none => by_cases hqt : q = target <;> by_cases hqs : q = s <;> simp [hqt, hqs]
  | some r =>
      -- There is something to take out of the list of the old parent only.
      have hkept : q ≠ old → r.children.filter (· != s) = r.children := by
        intro hqo
        refine List.filter_eq_self.2 fun c hcr => ?_
        rw [← children_of_find? hr] at hcr
        have hcs : c ≠ s := fun heq => hqo (h.parent_unique (heq ▸ hcr) (h.parent_iff.1 hold))
        simpa using hcs
      have hlist : (if q = target then
            some ((r.keeping (· != s)).inserting place s) else some (r.keeping (· != s))) =
          some { r with
            children := if q = target then others.insertIdx (position place others.length) s
              else if q = old then r.children.filter (· != s) else r.children } := by
        by_cases hqt : q = target
        · have hothers : others = r.children.filter (· != s) := by
            rw [← children_of_find? hr, hqt]
          simp only [if_pos hqt, Record.inserting, Record.keeping, insertAt_eq_insertIdx, hothers]
        · by_cases hqo : q = old
          · simp only [if_neg hqt, if_pos hqo, Record.keeping]
          · simp only [if_neg hqt, if_neg hqo, Record.keeping, hkept hqo]
      simp only [Option.map_some, hlist]
      by_cases hqs : q = s
      · simp only [if_pos hqs, Record.unlisting]
      · simp only [if_neg hqs]

/-- A move shows each record as before; only children come and go. -/
theorem viewOver_move (q : RecordId) :
    ((t.move s target place).tree.find? q).map Record.viewOver =
      (t.find? q).map Record.viewOver := by
  obtain ⟨old, r, hold, -⟩ := h.exists_parent_of_move hc
  rw [find?_move_eq_map h hc place hold, Option.map_map]
  congr 1
  funext rq
  by_cases hqs : q = s
  · simp only [Function.comp, if_pos hqs]
    exact rq.viewOver_unlisting s
  · simp only [Function.comp, if_neg hqs]
    rfl

/-- The record that is moved is seen as before, with all that is below it. -/
theorem view?_move_self : (t.move s target place).tree.view? s = t.view? s := by
  obtain ⟨old, r, hold, hr⟩ := h.exists_parent_of_move hc
  have hlinked := linked_move h.toLinked hc hold hr place
  refine h.view?_congr hlinked (fun y _ => viewOver_move h hc place y) fun y hy => ?_
  have hne : y ≠ target := fun heq => hc.outside (heq ▸ hy)
  rw [children_move h.toLinked hc hold hr]
  dsimp only
  rw [if_neg hne, List.filter_eq_self]
  intro c hcy
  have hcs : c ≠ s := fun heq => h.not_reaches_of_mem (heq ▸ hcy) hy
  simpa using hcs

/-- What is not below the record that is moved is seen as before, but for that record. -/
theorem cut_view?_move {x : RecordId} (hx : t.contains x = true) (hsx : ¬ t.Reaches s x) :
    ((t.move s target place).tree.view? x).map (View.cut s) = (t.view? x).map (View.cut s) := by
  obtain ⟨old, r, hold, hr⟩ := h.exists_parent_of_move hc
  have hmoved := h.move s target place
  refine h.induction_down (P := fun y => ¬ t.Reaches s y →
    ((t.move s target place).tree.view? y).map (View.cut s) = (t.view? y).map (View.cut s))
    ?_ hx hsx
  intro y _ ih hsy
  have hothers : ((t.move s target place).tree.children y).filter (· != s) =
      (t.children y).filter (· != s) := by
    rw [children_move h.toLinked hc hold hr]
    dsimp only
    split
    · rw [filter_insertAt, List.filter_filter]
      simp only [Bool.and_self]
    · rw [List.filter_filter]
      simp only [Bool.and_self]
  have hcs : ((t.children y).filter (· != s)).filterMap
        (fun c => ((t.move s target place).tree.view? c).map (View.cut s)) =
      ((t.children y).filter (· != s)).filterMap fun c => (t.view? c).map (View.cut s) := by
    refine List.filterMap_congr fun c hcy => ?_
    obtain ⟨hcy, hne⟩ := List.mem_filter.1 hcy
    exact ih c hcy fun hsc => hsy (h.reaches_of_mem hsc hcy (by simpa using hne))
  have hshow := congrArg (Option.map fun f => f (((t.children y).filter (· != s)).filterMap
    fun c => (t.view? c).map (View.cut s))) (viewOver_move h hc place y)
  rw [Option.map_map, Option.map_map] at hshow
  rw [hmoved.cut_view?, h.cut_view?, hothers, hcs]
  exact hshow

end Move

end Tree

namespace Editor

/-- In every tree that an editor reaches, a move that does something takes the record with all that is
below it, as it was, to the place among the other children of the target that was asked for, or to
the end if that is farther or none was asked for.  But for that part the tree is seen as before.  Of
the records only the lists of the old parent and of the target change, and the one that was moved no
longer lists itself. -/
theorem Reached.move_relocates {e : Editor} (h : e.Reached) {s target : RecordId}
    {place : Option UInt64}
    (heffective : (e.tree.apply e.library (.move s target place)).inverse?.isSome = true) :
    let moved := (e.apply (.move s target place)).1.tree
    let others := (e.tree.children target).filter (· != s)
    (∃ v, e.tree.view? s = some v ∧ moved.view? s = some v) ∧
      (∃ v v', e.tree.view? rootId = some v ∧ moved.view? rootId = some v' ∧ v'.cut s = v.cut s) ∧
      moved.children target = others.insertIdx (position place others.length) s ∧
      ∃ old, e.tree.parent? s = some old ∧ ∀ q, moved.find? q = (e.tree.find? q).map fun r =>
        { r with
          children := if q = target then others.insertIdx (position place others.length) s
            else if q = old then r.children.filter (· != s) else r.children
          aggregation? := if q = s then r.aggregation?.map (·.without s) else r.aggregation? } := by
  have hw := h.wellFormed
  have hc : e.tree.CanMove s target := (hw.isSome_inverse?_iff (by simp)).1 heffective
  obtain ⟨old, rs, hold, hrs⟩ := hw.exists_parent_of_move hc
  rw [tree_apply, Tree.apply]
  intro moved others
  have hself : moved.view? s = e.tree.view? s := Tree.view?_move_self hw hc place
  have hcut : (moved.view? rootId).map (View.cut s) = (e.tree.view? rootId).map (View.cut s) :=
    Tree.cut_view?_move hw hc place hw.root_mem fun hs =>
      hc.ne_root (hw.reaches_antisymm hs (hw.reached hc.mem))
  refine ⟨?_, ?_, ?_, old, hold, Tree.find?_move_eq_map hw hc place hold⟩
  · obtain ⟨v, hv⟩ := hw.exists_view? hc.mem
    exact ⟨v, hv, hself.trans hv⟩
  · obtain ⟨v, hv⟩ := hw.exists_view? hw.root_mem
    rw [hv, Option.map_some] at hcut
    obtain ⟨v', hv', heq⟩ := Option.map_eq_some_iff.1 hcut
    exact ⟨v, v', hv, hv', heq⟩
  · rw [Tree.children_move hw.toLinked hc hold hrs, ← insertAt_eq_insertIdx]
    exact if_pos rfl

/-- A sum that lists itself goes behind the only child of another record, with what is below it. -/
theorem Reached.move_relocates_sum :
    let a : Aggregation := ⟨.sum, "", "", [.ofColumn 3 "total", .ofColumn 4 "a"]⟩
    let e := ((ofTree .empty (.alone "t")).apply (.batch [.add 0 (.column 1 "left") none,
      .add 0 (.column 2 "right") none,
      .add 1 ⟨3, "total", .aggregation, .number, "", true, [], some a⟩ none,
      .add 3 (.column 4 "a") none, .add 2 (.column 5 "b") none])).1
    let moved := (e.apply (.move 3 2 (some 9))).1.tree
    e.Reached ∧ (e.tree.apply e.library (.move 3 2 (some 9))).inverse?.isSome = true ∧
      moved.children 2 = [5, 3] ∧ ∃ v, e.tree.view? 3 = some v ∧ moved.view? 3 = some v := by
  intro a e moved
  have h : e.Reached := .apply _ (.alone .empty "t")
  have heffective : (e.tree.apply e.library (.move 3 2 (some 9))).inverse?.isSome = true := by
    decide +kernel
  obtain ⟨hself, -, hchildren, -⟩ := Reached.move_relocates h heffective
  exact ⟨h, heffective, hchildren.trans (by decide +kernel), hself⟩

end Editor

end ColumnTree.Outline
