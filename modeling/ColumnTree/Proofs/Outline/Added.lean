/-
# Which children a new record takes

A new record takes over those of the children it lists that it may have, each once and in the order
of the list.  Which these are is read off the tree before: none of them is on the way up from the
parent, so that no adoption changes whether another one is allowed (`Gave.adoptable_eq`).  They leave
the lists they stood in, and these change in no other way.
-/
import ColumnTree.Proofs.Outline.Effective
import ColumnTree.Proofs.Outline.Reached

namespace ColumnTree.Outline

open Formula

namespace Tree

section Add

variable {t : Tree} {parent : RecordId} {r : Record} (hc : t.CanAdd parent r)
  (place : Option UInt64) (h : t.Linked)

include hc h

/-- The parent lists the new record at its place among those that are not adopted. -/
theorem CanAdd.children_parent :
    let others := (t.children parent).filter fun c => !(t.adoptees parent r.children).contains c
    (t.add parent r place).tree.children parent =
      others.insertIdx (position place others.length) r.id := by
  intro others
  rw [hc.children place h, if_neg hc.ne, ← insertAt_eq_insertIdx]
  exact if_pos rfl

/-- What becomes of each record that there was. -/
theorem CanAdd.find?_eq_map {q : RecordId} (hq : q ≠ r.id) :
    (t.add parent r place).tree.find? q = (t.find? q).map fun rq =>
      { rq with children :=
          if q = parent then (t.add parent r place).tree.children parent
          else rq.children.filter fun c => !(t.adoptees parent r.children).contains c } := by
  rw [hc.find? place h, if_neg hq]
  cases hrq : t.find? q with
  | none => split <;> rfl
  | some rq =>
      by_cases hqp : q = parent
      · subst hqp
        simp only [if_true, Option.map_some, hc.children_parent place h, children_of_find? hrq,
          ← insertAt_eq_insertIdx]
        rfl
      · simp only [if_neg hqp, Option.map_some]
        rfl

/-- A record that is not the parent, and from which no child is taken, stays as it was. -/
theorem CanAdd.find?_of_none_taken {q : RecordId} (hq : q ≠ r.id) (hqp : q ≠ parent)
    (hnone : ∀ c ∈ t.adoptees parent r.children, c ∉ t.children q) :
    (t.add parent r place).tree.find? q = t.find? q := by
  rw [hc.find? place h, if_neg hq, if_neg hqp]
  cases hrq : t.find? q with
  | none => rfl
  | some rq =>
      refine congrArg some (Record.keeping_eq_self fun c hcq => ?_)
      have hca : c ∉ t.adoptees parent r.children := fun hca =>
        hnone c hca (children_of_find? hrq ▸ hcq)
      simpa using hca

/-- An adopted child leaves its parent for the new record. -/
theorem CanAdd.exists_former {c : RecordId} (hca : c ∈ t.adoptees parent r.children) :
    ∃ former, t.parent? c = some former ∧ c ∉ (t.add parent r place).tree.children former ∧
      (t.add parent r place).tree.parent? c = some r.id := by
  obtain ⟨-, hroot, hmem, -⟩ := (mem_adoptees h).1 hca
  obtain ⟨former, hformer⟩ := h.exists_parent hmem hroot
  have hcr : c ≠ r.id := fun heq => hc.not_mem_adoptees h (heq ▸ hca)
  have hparent : (t.add parent r place).tree.parent? c = some r.id := by
    rw [hc.parent? place h, if_neg hcr, if_pos hca]
  refine ⟨former, hformer, fun hstays => ?_, hparent⟩
  rw [← hc.parent?_iff place h, hparent] at hstays
  -- The new record was nobody's parent.
  obtain rfl := Option.some.inj hstays
  have hthere := contains_of_mem_children (h.parent_iff.1 hformer)
  rw [hc.fresh] at hthere
  cases hthere

end Add

end Tree

namespace Editor

/-- In every tree that an editor reaches, a new record takes over the children it lists that are
there and are neither the root nor on the way up from its parent, each once and in the order of the
list, as the tree was before.  They leave their former parents, whose other children stay in order;
the new record stands among those of its parent at the place that was asked for, or at the end if
that is farther or none was asked for.  No other record changes. -/
theorem Reached.add_adopts {e : Editor} (h : e.Reached) {parent : RecordId} {r : Record}
    {place : Option UInt64}
    (heffective : (e.tree.apply e.library (.add parent r place)).inverse?.isSome = true) :
    let grown := (e.apply (.add parent r place)).1.tree
    let adopted := (r.children.filter fun c =>
      c != rootId && e.tree.contains c && !e.tree.isWithin parent c).eraseDups
    let others := (e.tree.children parent).filter fun c => !adopted.contains c
    (∀ c, c ∈ adopted ↔
      c ∈ r.children ∧ c ≠ rootId ∧ e.tree.contains c = true ∧ ¬ e.tree.Reaches c parent) ∧
      grown.find? r.id = some { r.completed with children := adopted } ∧
      (∀ c ∈ adopted, ∃ former, e.tree.parent? c = some former ∧ c ∉ grown.children former ∧
        grown.parent? c = some r.id) ∧
      grown.children parent = others.insertIdx (position place others.length) r.id ∧
      (∀ q, q ≠ r.id → grown.find? q = (e.tree.find? q).map fun rq => { rq with
        children := if q = parent then grown.children parent
          else rq.children.filter fun c => !adopted.contains c }) ∧
      ∀ q, q ≠ r.id → q ≠ parent → (∀ c ∈ adopted, c ∉ e.tree.children q) →
        grown.find? q = e.tree.find? q := by
  have hw := h.wellFormed
  have hl := hw.toLinked
  have hc : e.tree.CanAdd parent r := (hw.isSome_inverse?_iff (by simp)).1 heffective
  rw [tree_apply, Tree.apply]
  intro grown adopted others
  have hadopted : adopted = e.tree.adoptees parent r.children := rfl
  refine ⟨fun c => Tree.mem_adoptees hl, ?_, fun c hca => hc.exists_former place hl hca,
    hc.children_parent place hl, fun q hq => hc.find?_eq_map place hl hq,
    fun q hq hqp hnone => hc.find?_of_none_taken place hl hq hqp hnone⟩
  rw [hadopted, hc.find? place hl, if_pos rfl]

/-- A new record that lists a record, one that it is below of twice, one that is not there, the root,
its own parent and another child: it takes the first two and the last. -/
theorem Reached.add_adopts_below :
    let e := ((ofTree .empty (.alone "t")).apply (.batch [.add 0 (.column 1 "a") none,
      .add 1 (.column 2 "b") none, .add 2 (.column 3 "c") none, .add 0 (.column 4 "d") none,
      .add 4 (.column 6 "f") none])).1
    let r : Record := { Record.column 5 "e" with children := [3, 1, 1, 9, 0, 4, 2] }
    let grown := (e.apply (.add 4 r (some 7))).1.tree
    e.Reached ∧ (e.tree.apply e.library (.add 4 r (some 7))).inverse?.isSome = true ∧
      grown.children 5 = [3, 1, 2] ∧ grown.children 4 = [6, 5] := by
  intro e r grown
  have h : e.Reached := .apply _ (.alone .empty "t")
  have heffective : (e.tree.apply e.library (.add 4 r (some 7))).inverse?.isSome = true := by
    rfl
  obtain ⟨-, hnew, -, hchildren, -⟩ := Reached.add_adopts h heffective
  exact ⟨h, heffective, (Tree.children_of_find? hnew).trans rfl,
    hchildren.trans rfl⟩

end Editor

end ColumnTree.Outline
