/-
# The trees that an editor reaches

`Reached` collects the editors that there can be: those of a root alone or of records that were
loaded, and what comes out of making an edit, with the log or without, taking one back, giving an
aggregation a formula by hand, and taking over the tree of another editor.  All their trees are well
formed, whatever the commands are; so the check never finds a fault in them, and the index of
parents is always the one that the check builds anew.
-/
import ColumnTree.Outline.Editor
import ColumnTree.Proofs.Formula.Compiled
import ColumnTree.Proofs.Outline.Loading
import ColumnTree.Proofs.Outline.Preserve

namespace ColumnTree.Outline

open Formula

namespace Editor

/-- The editors that there can be. -/
inductive Reached : Editor → Prop where
  | alone (l : Library) (name : String) : Reached (ofTree l (.alone name))
  | loaded (l : Library) {rs : List Record} {t : Tree} :
      Tree.ofList rs = .ok t → Reached (ofTree l t)
  | apply {e : Editor} (c : Command) : Reached e → Reached (e.apply c).1
  | replay {e : Editor} (c : Command) : Reached e → Reached (e.replay c).1
  | undo {e e' : Editor} : Reached e → e.undo? = some e' → Reached e'
  | setFormula {e e' : Editor} {id : RecordId} {text : String} {warnings : List Warning} :
      Reached e → e.setFormula id text = .ok (e', warnings) → Reached e'
  | load {e e' : Editor} : Reached e → Reached e' → Reached (e.load e'.tree)

/-! ## What each step does to the tree -/

@[simp] theorem tree_apply (e : Editor) (c : Command) :
    (e.apply c).1.tree = (e.tree.apply e.library c).tree := rfl

@[simp] theorem tree_replay (e : Editor) (c : Command) :
    (e.replay c).1.tree = (e.tree.apply e.library c).tree := rfl

/-- Taking back is applying the inverse of the last entry. -/
theorem undo?_eq_some_iff {e e' : Editor} :
    e.undo? = some e' ↔ ∃ last log, e.log = last :: log ∧
      e' = { e with tree := (e.tree.apply e.library last.inverse).tree, log } := by
  unfold undo?
  cases e.log with
  | nil => simp
  | cons last log =>
      constructor
      · intro h
        exact ⟨last, log, rfl, (Option.some.inj h).symm⟩
      · rintro ⟨_, _, heq, rfl⟩
        cases heq
        rfl

theorem compileFor_eq_ok_iff {e : Editor} {id : RecordId} {text : String} {compiled : Expr} :
    e.compileFor id text = .ok compiled ↔
      ∃ r, e.tree.find? id = some r ∧ r.kind = .aggregation ∧
        compileScoped e.library (e.tree.childNames id) text = .ok compiled := by
  unfold compileFor
  cases e.tree.find? id with
  | none => exact ⟨nofun, nofun⟩
  | some r =>
      by_cases hk : r.kind = .aggregation
      · simp [hk]
      · simp [hk]

/-- A formula by hand is an edit of the record. -/
theorem setFormula_eq_ok_iff {e : Editor} {id : RecordId} {text : String}
    {o : Editor × List Warning} :
    e.setFormula id text = .ok o ↔ ∃ compiled, e.compileFor id text = .ok compiled ∧
      o = e.apply (.update id (.ofAggregation (some (byHand
        (((e.tree.find? id).bind (·.aggregation?)).getD .standard) (e.tree.childRecords id) text
        compiled)))) := by
  unfold setFormula
  simp only [bind_eq_ok_iff, pure_eq_ok_iff, @eq_comm _ o]

/-- The text of a formula by hand compiles. -/
theorem exists_byHand_of_setFormula {e e' : Editor} {id : RecordId} {text : String}
    {warnings : List Warning} (h : e.setFormula id text = .ok (e', warnings)) :
    ∃ before children compiled,
      before = ((e.tree.find? id).bind (·.aggregation?)).getD .standard ∧
      compileText e.library text = .ok compiled ∧ e' = (e.apply
        (.update id (.ofAggregation (some (byHand before children text compiled))))).1 := by
  obtain ⟨compiled, hcompiled, heq⟩ := setFormula_eq_ok_iff.1 h
  obtain ⟨r, -, -, hscoped⟩ := compileFor_eq_ok_iff.1 hcompiled
  exact ⟨_, _, compiled, rfl, compileText_of_compileScoped hscoped, congrArg Prod.fst heq⟩

theorem exists_patch_of_setFormula {e e' : Editor} {id : RecordId} {text : String}
    {warnings : List Warning} (h : e.setFormula id text = .ok (e', warnings)) :
    ∃ p, e' = (e.apply (.update id p)).1 := by
  obtain ⟨before, children, compiled, -, -, heq⟩ := exists_byHand_of_setFormula h
  exact ⟨_, heq⟩

theorem Reached.wellFormed {e : Editor} (h : e.Reached) : e.tree.WellFormed := by
  induction h with
  | alone l name => exact .alone name
  | loaded l ht => exact .of_ofList ht
  | @apply e c _ ih => exact ih.apply e.library c
  | @replay e c _ ih => exact ih.apply e.library c
  | @undo e e' _ he ih =>
      obtain ⟨last, log, -, rfl⟩ := undo?_eq_some_iff.1 he
      exact ih.apply e.library last.inverse
  | @setFormula e e' id text warnings _ he ih =>
      obtain ⟨p, rfl⟩ := exists_patch_of_setFormula he
      exact ih.apply e.library (.update id p)
  | load _ _ _ ih => exact ih

/-- In every tree that an editor reaches the root exists, is the only record of kind root and is
nobody's child; every other record stands once in the lists of children; children exist; every
record is below the root; and the index of parents is the one that the lists of children determine.
So the check finds no fault, and what it builds is the index there is. -/
theorem Reached.invariants {e : Editor} (h : e.Reached) :
    (∃ r, e.tree.find? rootId = some r ∧ r.kind = .root) ∧
      (∀ p, rootId ∉ e.tree.children p) ∧
      (∀ {id r}, e.tree.find? id = some r → r.id = id ∧ (r.kind = .root → id = rootId)) ∧
      (∀ {id}, e.tree.contains id = true → id ≠ rootId →
        ∃ p, ∀ q, (e.tree.children q).count id = if q = p then 1 else 0) ∧
      (∀ {p c}, c ∈ e.tree.children p → e.tree.contains c = true) ∧
      (∀ {id}, e.tree.contains id = true → e.tree.Reaches rootId id) ∧
      (∀ {c p}, e.tree.parent? c = some p ↔ c ∈ e.tree.children p) ∧
      e.tree.check = .ok () ∧ Tree.parentsOf e.tree.records = .ok e.tree.parents := by
  have hwf := h.wellFormed
  obtain ⟨r, hr⟩ := Tree.contains_iff.1 hwf.root_mem
  refine ⟨⟨r, hr, (hwf.kind_iff hr).2 rfl⟩, hwf.root_unlisted, ?_, ?_, hwf.listed, hwf.reached,
    hwf.parent_iff, hwf.check_eq, hwf.parentsOf_eq⟩
  · intro id r hr
    exact ⟨hwf.named hr, (hwf.kind_iff hr).1⟩
  · intro id hid hne
    exact hwf.stands_once hid hne

/-- A record that lists a column twice, a missing record, itself and the root adopts the column. -/
theorem Reached.invariants_of_adoption :
    let e : Editor := ofTree .empty (.alone "t")
    let e := (e.apply (.add 0 (.column 1 "a") none)).1
    let r : Record := ⟨2, "b", .aggregation, .unknown, "", true, [1, 1, 9, 2, 0], none⟩
    let e := (e.apply (.batch [.add 0 r (some 0), .remove 7])).1
    e.Reached ∧ e.tree.children 2 = [1] ∧ e.tree.check = .ok () ∧
      Tree.parentsOf e.tree.records = .ok e.tree.parents := by
  intro e₀ e₁ r e
  have h : e.Reached := .apply _ (.apply _ (.alone .empty "t"))
  obtain ⟨-, -, -, -, -, -, -, hcheck, hparents⟩ := Reached.invariants h
  exact ⟨h, by decide, hcheck, hparents⟩

end Editor

end ColumnTree.Outline
