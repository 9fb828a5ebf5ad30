/-
# Who is in a view

The views in a view are those of the records below, each of them once (`mem_parts_iff`,
`nodup_parts`): a way down never comes back to where it was, and two ways down that part do not meet
again, for there is one way up.  What a record's view shows is therefore the same wherever the record is
seen from.
-/
import ColumnTree.Proofs.Outline.Reached
import ColumnTree.Proofs.Outline.Viewed

namespace ColumnTree.Outline

/-! ## The views in a view -/

namespace View

/-- The number. -/
protected def id : View → RecordId
  | node i .. => i

mutual

/-- The views in a view, each before those below it; the first is the view itself. -/
def parts : View → List View
  | node id name children shown kind formula =>
    node id name children shown kind formula :: partsAll children

/-- The views in several views. -/
def partsAll : List View → List View
  | [] => []
  | v :: rest => parts v ++ partsAll rest

end

theorem partsAll_eq (vs : List View) : partsAll vs = vs.flatMap parts := by
  induction vs with
  | nil => rfl
  | cons v rest ih => rw [partsAll, ih, List.flatMap_cons]

theorem parts_eq (v : View) : v.parts = v :: v.children.flatMap parts := by
  cases v
  rw [parts, partsAll_eq, children]

mutual

theorem length_parts : (v : View) → v.parts.length = v.size
  | node _ _ children .. => by
    rw [parts, List.length_cons, length_partsAll children, size, Nat.add_comm]

theorem length_partsAll : (vs : List View) → (partsAll vs).length = sizes vs
  | [] => rfl
  | v :: rest => by
    rw [partsAll, List.length_append, length_parts v, length_partsAll rest, sizes]

end

end View

namespace Tree

/-! ## Ways down -/

namespace Linked

variable {t : Tree} (h : t.Linked)

include h

/-- Of two records above a third one is above the other. -/
theorem reaches_total {a b x : RecordId} (ha : t.Reaches a x) (hb : t.Reaches b x) :
    t.Reaches a b ∨ t.Reaches b a := by
  have hunique : Relator.RightUnique (Function.swap t.Lists) := fun _ _ _ hp hq =>
    h.parent_unique hp hq
  rcases (Relation.reflTransGen_swap.2 ha).total_of_right_unique hunique
      (Relation.reflTransGen_swap.2 hb) with hab | hba
  · exact .inr (Relation.reflTransGen_swap.1 hab)
  · exact .inl (Relation.reflTransGen_swap.1 hba)

/-- The ways down from two children of one record do not meet. -/
theorem eq_of_reaches {p c d x : RecordId} (hc : c ∈ t.children p) (hd : d ∈ t.children p)
    (hcx : t.Reaches c x) (hdx : t.Reaches d x) : c = d := by
  by_contra hne
  rcases h.reaches_total hcx hdx with hcd | hdc
  · exact h.not_reaches_of_mem hc (h.reaches_of_mem hcd hd (Ne.symm hne))
  · exact h.not_reaches_of_mem hd (h.reaches_of_mem hdc hc hne)

theorem contains_of_reaches {x y : RecordId} (hx : t.contains x = true) (hxy : t.Reaches x y) :
    t.contains y = true := by
  cases hxy with
  | refl => exact hx
  | tail _ hl => exact h.listed hl

/-- No way down goes on for ever. -/
theorem acc_children {x : RecordId} (hx : t.contains x = true) :
    Acc (fun c p => c ∈ t.children p) x :=
  h.induction_down (P := Acc fun c p => c ∈ t.children p) (fun _ _ ih => .intro _ ih) hx

/-- A view is the same with any number of levels that is not less than that of the records. -/
theorem viewTo_eq {levels : Nat} {x : RecordId} (hx : t.contains x = true) (hle : t.size ≤ levels) :
    t.viewTo levels x = t.view? x := by
  obtain ⟨n, hn⟩ := h.exists_climb hx
  induction hle with
  | refl => rfl
  | step hle ih => exact (h.viewTo_succ hn (Nat.le_add_right_of_le hle)).trans ih

end Linked

/-! ## Views -/

namespace WellFormed

variable {t : Tree} (h : t.WellFormed)

include h

/-- A view shows its own record over the views of the children, with none left out. -/
theorem exists_record_of_view? {x : RecordId} {v : View} (hv : t.view? x = some v) :
    ∃ r, t.find? x = some r ∧ v = r.viewOver v.children ∧ v.id = x ∧
      v.children = (t.children x).filterMap t.view? ∧ v.children.map View.id = r.children := by
  rw [h.view?_eq] at hv
  obtain ⟨r, hr, rfl⟩ := Option.map_eq_some_iff.1 hv
  have hchild : ∀ c ∈ t.children x, (t.view? c).map View.id = some c := by
    intro c hc
    obtain ⟨rc, hrc⟩ := contains_iff.1 (h.listed hc)
    rw [h.view?_eq, hrc]
    exact congrArg some (h.named hrc)
  refine ⟨r, hr, rfl, h.named hr, rfl, ?_⟩
  show ((t.children x).filterMap t.view?).map View.id = r.children
  rw [List.map_filterMap, List.filterMap_congr hchild, List.filterMap_some, children_of_find? hr]

theorem id_of_view? {x : RecordId} {v : View} (hv : t.view? x = some v) : v.id = x := by
  obtain ⟨_, _, _, hid, _⟩ := h.exists_record_of_view? hv
  exact hid

/-- The views in the view of a record are those of the records below it. -/
theorem mem_parts_iff {x : RecordId} {v w : View} (hv : t.view? x = some v) :
    w ∈ v.parts ↔ ∃ y, t.Reaches x y ∧ t.view? y = some w := by
  obtain ⟨r, hr, -⟩ := h.exists_record_of_view? hv
  refine h.induction_down (P := fun x => ∀ v, t.view? x = some v →
    (w ∈ v.parts ↔ ∃ y, t.Reaches x y ∧ t.view? y = some w)) ?_ (contains_iff.2 ⟨r, hr⟩) v hv
  intro x _ ih v hv
  obtain ⟨-, -, -, -, hchildren, -⟩ := h.exists_record_of_view? hv
  rw [View.parts_eq, List.mem_cons, List.mem_flatMap, hchildren]
  constructor
  · rintro (rfl | ⟨vc, hvc, hw⟩)
    · exact ⟨x, .refl, hv⟩
    · obtain ⟨c, hc, hvc⟩ := List.mem_filterMap.1 hvc
      obtain ⟨y, hy, hw⟩ := (ih c hc vc hvc).1 hw
      exact ⟨y, .head hc hy, hw⟩
  · rintro ⟨y, hy, hw⟩
    rcases hy.cases_head with rfl | ⟨c, hc, hy⟩
    · exact .inl (Option.some.inj (hw.symm.trans hv))
    · obtain ⟨vc, hvc⟩ := h.exists_view? (h.listed hc)
      exact .inr ⟨vc, List.mem_filterMap.2 ⟨c, hc, hvc⟩, (ih c hc vc hvc).2 ⟨y, hy, hw⟩⟩

/-- The numbers in the view of a record are those of the records below it. -/
theorem mem_ids_parts_iff {x y : RecordId} {v : View} (hv : t.view? x = some v) :
    y ∈ v.parts.map View.id ↔ t.Reaches x y := by
  obtain ⟨r, hr, -⟩ := h.exists_record_of_view? hv
  rw [List.mem_map]
  constructor
  · rintro ⟨w, hw, rfl⟩
    obtain ⟨y, hy, hyw⟩ := (h.mem_parts_iff hv).1 hw
    rwa [h.id_of_view? hyw]
  · intro hy
    obtain ⟨w, hw⟩ := h.exists_view? (h.contains_of_reaches (contains_iff.2 ⟨r, hr⟩) hy)
    exact ⟨w, (h.mem_parts_iff hv).2 ⟨y, hy, hw⟩, h.id_of_view? hw⟩

/-- No number is in a view twice. -/
theorem nodup_parts {x : RecordId} {v : View} (hv : t.view? x = some v) :
    (v.parts.map View.id).Nodup := by
  obtain ⟨r, hr, -⟩ := h.exists_record_of_view? hv
  refine h.induction_down (P := fun x => ∀ v, t.view? x = some v → (v.parts.map View.id).Nodup) ?_
    (contains_iff.2 ⟨r, hr⟩) v hv
  intro x _ ih v hv
  obtain ⟨-, -, -, hid, hchildren, -⟩ := h.exists_record_of_view? hv
  rw [View.parts_eq, List.map_cons, List.map_flatMap, List.nodup_cons, hid, hchildren,
    List.nodup_flatMap]
  refine ⟨fun hx => ?_, fun vc hvc => ?_, ?_⟩
  · obtain ⟨vc, hvc, hx⟩ := List.mem_flatMap.1 hx
    obtain ⟨c, hc, hvc⟩ := List.mem_filterMap.1 hvc
    exact h.not_reaches_of_mem hc ((h.mem_ids_parts_iff hvc).1 hx)
  · obtain ⟨c, hc, hvc⟩ := List.mem_filterMap.1 hvc
    exact ih c hc vc hvc
  · refine List.pairwise_filterMap.2 ((h.nodup x).imp_of_mem ?_)
    intro c d hc hd hne vc hvc vd hvd y hyc hyd
    exact hne (h.eq_of_reaches hc hd ((h.mem_ids_parts_iff hvc).1 hyc)
      ((h.mem_ids_parts_iff hvd).1 hyd))

/-- The view of the root has as many records as there are. -/
theorem size_view?_root {v : View} (hv : t.view? rootId = some v) : v.size = t.size := by
  have hperm : (v.parts.map View.id).Perm t.records.keys := by
    refine (List.perm_ext_iff_of_nodup (h.nodup_parts hv) t.records.nodup_keys).2 fun y => ?_
    rw [h.mem_ids_parts_iff hv, t.records.mem_keys_iff]
    exact ⟨fun hy => contains_iff.1 (h.contains_of_reaches h.root_mem hy),
      fun hy => h.reached (contains_iff.2 hy)⟩
  have hlength := hperm.length_eq
  rw [List.length_map, View.length_parts, t.records.length_keys] at hlength
  exact hlength

end WellFormed

end Tree

namespace Editor

/-- In every tree that an editor reaches there is a view of each record.  The ways down from it end, so
that no number of levels that is great enough cuts anything off.  In the view stands each record that is
within the one it is of, once, and nobody else; a record is seen there with its own name, kind, formula
and mark, over its children in the order in which it lists them, and just as in its own view.  The view
of the root has as many records as there are. -/
theorem Reached.view_shows {e : Editor} (h : e.Reached) {x : RecordId}
    (hx : e.tree.contains x = true) :
    Acc (fun c p => c ∈ e.tree.children p) x ∧
    ∃ v, e.tree.view? x = some v ∧ (∀ levels, e.tree.size ≤ levels → e.tree.viewTo levels x = some v) ∧
      (v.parts.map View.id).Nodup ∧ v.size = v.parts.length ∧
      (∀ y, y ∈ v.parts.map View.id ↔ e.tree.isWithin y x = true) ∧
      (∀ w ∈ v.parts, e.tree.view? w.id = some w ∧ ∃ r, e.tree.find? w.id = some r ∧
        w = .node r.id r.name w.children r.shown r.kind r.formula ∧
        w.children.map View.id = r.children) ∧
      (x = rootId → v.size = e.tree.size) := by
  have hw := h.wellFormed
  obtain ⟨v, hv⟩ := hw.exists_view? hx
  refine ⟨hw.acc_children hx, v, hv, fun levels hle => (hw.viewTo_eq hx hle).trans hv,
    hw.nodup_parts hv, v.length_parts.symm, fun y => ?_, fun w hwv => ?_, fun hroot => ?_⟩
  · rw [hw.mem_ids_parts_iff hv, hw.isWithin_iff]
  · obtain ⟨y, -, hy⟩ := (hw.mem_parts_iff hv).1 hwv
    obtain ⟨r, hr, hover, hid, -, hlist⟩ := hw.exists_record_of_view? hy
    rw [hid]
    exact ⟨hy, r, hr, hover, hlist⟩
  · rw [hroot] at hv
    exact hw.size_view?_root hv

/-- Of three columns the second has two below it, of which one has a column of its own. -/
theorem Reached.view_shows_middle :
    let e := ((ofTree .empty (.alone "t")).apply (.batch [.add 0 (.column 1 "a") none,
      .add 0 (.column 2 "b") none, .add 0 (.column 3 "c") none, .add 2 (.column 4 "d") none,
      .add 2 (.column 5 "e") none, .add 4 (.column 6 "f") none])).1
    e.Reached ∧ e.tree.contains 2 = true ∧
      ∃ v, e.tree.view? 2 = some v ∧ v.parts.map View.id = [2, 4, 6, 5] ∧
        ∀ y, e.tree.isWithin y 2 = true ↔ y ∈ [2, 4, 6, 5] := by
  intro e
  have h : e.Reached := .apply _ (.alone .empty "t")
  have hx : e.tree.contains 2 = true := rfl
  obtain ⟨-, v, hv, -, -, -, hmem, -⟩ := Reached.view_shows h hx
  have hids : v.parts.map View.id = [2, 4, 6, 5] := by
    have hall : (e.tree.view? 2).map (·.parts.map View.id) = some [2, 4, 6, 5] := rfl
    rw [hv] at hall
    exact Option.some.inj hall
  rw [hids] at hmem
  exact ⟨h, hx, v, hv, hids, fun y => (hmem y).symm⟩

end Editor

end ColumnTree.Outline
