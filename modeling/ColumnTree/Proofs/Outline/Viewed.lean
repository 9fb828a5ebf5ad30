/-
# What a view shows

A view is cut off after as many levels as there are records, and no way down has that many: nothing is
cut off, and the view of a record is made of the views of its children (`Linked.view?_eq`).  What holds
of a record if it holds of its children holds of every record of a linked tree
(`Linked.induction_down`); that is how a statement about views is proved.
-/
import ColumnTree.Outline.View
import ColumnTree.Proofs.Outline.WellFormed

namespace ColumnTree.Outline

/-- The view of a record over the views of its children. -/
def Record.viewOver (r : Record) (vs : List View) : View :=
  .node r.id r.name vs r.shown r.kind r.formula

namespace Tree

namespace Linked

variable {t : Tree} (h : t.Linked)

include h

/-! ## Ways down -/

/-- The way up from a record has fewer steps than there are records. -/
theorem lt_size_of_climbs {n : Nat} {x : RecordId} (hx : Climbs t.parents n x rootId) :
    n < t.size := by
  have hroot : rootId ∈ t.records.keys :=
    t.records.mem_keys_iff.2 (contains_iff.1 h.root_mem)
  have hle := hx.length_le h.parent?_root (l := t.records.keys.erase rootId) fun y p hp => by
    have hmem := h.parent_iff.1 hp
    have hne : y ≠ rootId := fun heq => h.root_unlisted p (heq ▸ hmem)
    exact (List.mem_erase_of_ne hne).2 (t.records.mem_keys_iff.2 (contains_iff.1 (h.listed hmem)))
  rw [List.length_erase_of_mem hroot, t.records.length_keys] at hle
  have hpos := List.length_pos_of_mem hroot
  rw [t.records.length_keys] at hpos
  show n < t.records.size
  omega

/-- What holds of a record if it holds of its children holds of every record. -/
theorem induction_down {P : RecordId → Prop}
    (step : ∀ x, t.contains x = true → (∀ c ∈ t.children x, P c) → P x) {x : RecordId}
    (hx : t.contains x = true) : P x := by
  -- The induction is on the number of levels that there may be below the record.
  have hlevels : ∀ levels n y, Climbs t.parents n y rootId → t.size ≤ levels + n →
      t.contains y = true → P y := by
    intro levels
    induction levels with
    | zero =>
        intro n y hy hle _
        have := h.lt_size_of_climbs hy
        omega
    | succ levels ih =>
        intro n y hy hle hmem
        refine step y hmem fun c hc => ih (n + 1) c (.up (h.parent_iff.2 hc) hy) (by omega) ?_
        exact h.listed hc
  obtain ⟨n, hn⟩ := h.exists_climb hx
  exact hlevels t.size n x hn (Nat.le_add_right ..) hx

/-- A record is above its children and not below them, so that no two records are above each
other. -/
theorem reaches_antisymm {x y : RecordId} (hxy : t.Reaches x y) (hyx : t.Reaches y x) : x = y := by
  cases hxy with
  | refl => rfl
  | tail hxq hl => exact absurd (hyx.trans hxq) (h.not_reaches_of_mem hl)

/-- Whatever is above a child, but for the child itself, is above its parent. -/
theorem reaches_of_mem {x p c : RecordId} (hxc : t.Reaches x c) (hc : c ∈ t.children p)
    (hne : c ≠ x) : t.Reaches x p := by
  cases hxc with
  | refl => exact absurd rfl hne
  | tail hxq hl => exact h.parent_unique hl hc ▸ hxq

/-! ## Views -/

/-- More levels show no more, from where there are enough of them. -/
theorem viewTo_succ {levels n : Nat} {x : RecordId} (hx : Climbs t.parents n x rootId)
    (hle : t.size ≤ levels + n) : t.viewTo (levels + 1) x = t.viewTo levels x := by
  induction levels generalizing n x with
  | zero =>
      have := h.lt_size_of_climbs hx
      omega
  | succ levels ih =>
      rw [viewTo]
      conv_rhs => rw [viewTo]
      refine Option.map_congr fun r hr => ?_
      have hcs : r.children.filterMap (t.viewTo (levels + 1)) =
          r.children.filterMap (t.viewTo levels) := by
        refine List.filterMap_congr fun c hc => ?_
        rw [← children_of_find? hr] at hc
        exact ih (.up (h.parent_iff.2 hc) hx) (by omega)
      rw [hcs]

/-- The view of a record is made of the views of its children. -/
theorem view?_eq (x : RecordId) :
    t.view? x = (t.find? x).map fun r => r.viewOver ((t.children x).filterMap t.view?) := by
  cases hr : t.find? x with
  | none =>
      cases hsize : t.size with
      | zero => rw [view?, hsize, viewTo]; rfl
      | succ n => rw [view?, hsize, viewTo, hr]; rfl
  | some r =>
      obtain ⟨n, hn⟩ := h.exists_climb (contains_iff.2 ⟨r, hr⟩)
      rw [view?, ← h.viewTo_succ hn (Nat.le_add_right ..), viewTo, hr, children_of_find? hr]
      rfl

theorem exists_view? {x : RecordId} (hx : t.contains x = true) : ∃ v, t.view? x = some v := by
  obtain ⟨r, hr⟩ := contains_iff.1 hx
  rw [h.view?_eq, hr]
  exact ⟨_, rfl⟩

/-- Trees that show and list the same below a record have the same view of it. -/
theorem view?_congr {t' : Tree} (h' : t'.Linked) {x : RecordId}
    (hshow : ∀ y, t.Reaches x y →
      (t'.find? y).map Record.viewOver = (t.find? y).map Record.viewOver)
    (hchildren : ∀ y, t.Reaches x y → t'.children y = t.children y) : t'.view? x = t.view? x := by
  -- The view is the way of showing the record, given the views of its children.
  have heq : ∀ (s : Tree), s.Linked → ∀ y, s.view? y =
      ((s.find? y).map Record.viewOver).map fun f => f ((s.children y).filterMap s.view?) := by
    intro s hs y
    rw [hs.view?_eq, Option.map_map]
    rfl
  cases hx : t.contains x with
  | false =>
      rw [heq t' h', heq t h, hshow x .refl, contains_eq_false_iff.1 hx]
      rfl
  | true =>
      refine h.induction_down (P := fun y => t.Reaches x y → t'.view? y = t.view? y) ?_ hx .refl
      intro y _ ih hy
      rw [heq t' h', heq t h, hshow y hy, hchildren y hy]
      have hcs : (t.children y).filterMap t'.view? = (t.children y).filterMap t.view? :=
        List.filterMap_congr fun c hc => ih c hc (.tail hy hc)
      rw [hcs]

end Linked

end Tree

end ColumnTree.Outline
