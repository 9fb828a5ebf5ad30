/-
# Inverses restore trees

An edit whose inverse is applied to the tree after it leaves the outline of the tree as it was, if it
did not make a new record adopt others.  It leaves the tree itself as it was, if moreover it did not
touch an aggregation in one of three ways (`SparesAggregations`).

`Restoring` packs what is needed to carry such a statement from edits to commands: inverses of
batches are made of the inverses of their parts, each of which meets a tree that is only similar to
the one that it was made for.
-/
import ColumnTree.Proofs.Outline.Effective
import ColumnTree.Proofs.Outline.TakenBack

namespace ColumnTree.Outline

open Formula

namespace Tree

/-! ## What an edit must not do -/

/-- No record that is there gets another parent by being adopted. -/
def AdoptsNothing (t : Tree) : Command → Prop
  | .add parent r place =>
    ∀ x, t.contains x = true → (t.add parent r place).tree.parent? x = t.parent? x
  | _ => True

/-- Nothing is added below an aggregation that says how it is worked out, no aggregation is removed
that does not, and nothing is moved that takes part in itself. -/
def SparesAggregations (t : Tree) : Command → Prop
  | .add parent _ _ =>
    ∀ p, t.find? parent = some p → p.kind = .aggregation → p.aggregation? = none
  | .remove x => ∀ r, t.find? x = some r → r.kind = .aggregation → r.aggregation? ≠ none
  | .move source _ _ =>
    ∀ r a, t.find? source = some r → r.aggregation? = some a → a.lists source = false
  | _ => True

theorem CanAdd.adoptees_eq_nil {t : Tree} (h : t.Linked) {parent : RecordId} {r : Record}
    (hc : t.CanAdd parent r) {place : Option UInt64} (hn : t.AdoptsNothing (.add parent r place)) :
    t.adoptees parent r.children = [] := by
  refine List.eq_nil_iff_forall_not_mem.2 fun c hcm => ?_
  have hcontains := ((mem_adoptees h).1 hcm).2.2.1
  have hcr : c ≠ r.id := fun heq => hc.not_mem_adoptees h (heq ▸ hcm)
  have := hn c hcontains
  rw [hc.parent? place h, if_neg hcr, if_pos hcm, eq_comm, h.parent_iff] at this
  -- The new record has no children in the tree before.
  have hmem := contains_of_mem_children this
  rw [hc.fresh] at hmem
  cases hmem

/-- A record that lists no children adopts nothing. -/
theorem adoptsNothing_of_children {t : Tree} (h : t.Linked) {r : Record} (hr : r.children = [])
    (parent : RecordId) (place : Option UInt64) : t.AdoptsNothing (.add parent r place) := by
  intro x hx
  by_cases hc : t.CanAdd parent r
  · have hne : x ≠ r.id := by
      rintro rfl
      rw [hc.fresh] at hx
      cases hx
    have hnone : t.adoptees parent r.children = [] := by
      rw [hr]
      rfl
    rw [hc.parent? place h, if_neg hne, hnone, if_neg List.not_mem_nil]
  · rw [add_of_not hc]
    rfl

/-- Nothing that is added below the root disturbs an aggregation. -/
theorem WellFormed.sparesAggregations_root {t : Tree} (h : t.WellFormed) (r : Record)
    (place : Option UInt64) : t.SparesAggregations (.add rootId r place) := by
  intro p hp hk
  rw [(h.kind_iff hp).2 rfl] at hk
  cases hk

/-! ## Single edits -/

section Edit

variable {l : Library} {t : Tree} (h : t.WellFormed) {inv : Command}

include h

theorem restore_add {parent : RecordId} {r : Record} {place : Option UInt64}
    (hn : t.AdoptsNothing (.add parent r place))
    (hinv : (t.add parent r place).inverse? = some inv) :
    ((t.add parent r place).tree.apply l inv).tree.SameOutline t ∧
      (t.SparesAggregations (.add parent r place) →
        ((t.add parent r place).tree.apply l inv).tree = t) := by
  by_cases hc : t.CanAdd parent r
  · have hnone := hc.adoptees_eq_nil h.toLinked hn
    rw [hc.inverse? place] at hinv
    obtain rfl := Option.some.inj hinv
    obtain ⟨rp, hrp⟩ := contains_iff.1 hc.parent_mem
    have hkeep : (Record.keeping fun c => !([] : List RecordId).contains c) = id := by
      funext s
      exact Record.keeping_eq_self (by simp)
    have hfind := find?_remove_add h hc place l hrp
    have hparent := parent?_remove_add h hc place l
    simp only [hnone, hkeep, id_eq, Record.insertingAll_nil, Option.map_id] at hfind
    simp only [hnone, List.not_mem_nil, if_false] at hparent
    rw [apply]
    refine ⟨⟨fun q => ?_, IdMap.ext_find? hparent⟩, fun hs => ext_find? (fun q => ?_) hparent⟩
    · rw [outline, hfind]
      split
      · next hq => rw [Option.map_some, Record.bare_following, hq, outline_of_find? hrp]
      · rfl
    · rw [hfind]
      split
      · next hq => rw [Record.following_eq_self (hs rp hrp), hq, hrp]
      · rfl
  · rw [add_of_not hc] at hinv
    cases hinv

theorem restore_remove {x : RecordId} (hinv : (t.remove l x).inverse? = some inv) :
    ((t.remove l x).tree.apply l inv).tree.SameOutline t ∧
      (t.SparesAggregations (.remove x) → ((t.remove l x).tree.apply l inv).tree = t) := by
  by_cases hc : t.CanRemove x
  · obtain ⟨p, gone, r, hp, hx, hr, hid⟩ := h.exists_parent_record hc
    have hpx : p ≠ x := (h.ne_of_mem (h.parent_iff.1 hp)).symm
    have hfind := find?_restoring (l := l) h hp hx hr hid hc.ne_root
    have hparent := parent?_restoring (l := l) h hp hx hr hid hc.ne_root
    rw [inverse?_remove hp hx hr hid hc.ne_root hpx] at hinv
    obtain rfl := Option.some.inj hinv
    refine ⟨⟨fun q => ?_, IdMap.ext_find? hparent⟩, fun hs => ext_find? (fun q => ?_) hparent⟩
    · rw [outline, hfind]
      split
      · next hq => rw [Option.map_some, Record.bare_completed, hq, outline_of_find? hx]
      · rfl
    · rw [hfind]
      split
      · next hq => rw [Record.completed_eq_self (hs gone hx), hq, hx]
      · rfl
  · rw [remove_of_not hc] at hinv
    cases hinv

theorem restore_update {id : RecordId} {p : Patch} (hinv : (t.update id p).inverse? = some inv) :
    ((t.update id p).tree.apply l inv).tree = t := by
  cases hr : t.find? id with
  | none => rw [update_of_find?_none hr] at hinv; cases hinv
  | some r =>
      have hback := update_update h hr p
      rw [update_of_find? hr] at hinv
      split at hinv
      · cases hinv
      · obtain rfl := Option.some.inj hinv
        rw [apply]
        exact hback

theorem restore_move {s target : RecordId} {place : Option UInt64}
    (hinv : (t.move s target place).inverse? = some inv) :
    ((t.move s target place).tree.apply l inv).tree.SameOutline t ∧
      (t.SparesAggregations (.move s target place) →
        ((t.move s target place).tree.apply l inv).tree = t) := by
  by_cases hc : t.CanMove s target
  · obtain ⟨old, r, hold, hr⟩ := h.exists_parent_of_move hc
    have hfind := find?_movingBack h hc hold hr place l
    have hparent := parent?_movingBack h hc hold hr place l
    rw [inverse?_move h.toLinked hc hold hr] at hinv
    obtain rfl := Option.some.inj hinv
    refine ⟨⟨fun q => ?_, IdMap.ext_find? hparent⟩, fun hs => ext_find? (fun q => ?_) hparent⟩
    · rw [outline, hfind]
      split
      · next hq => rw [Option.map_some, Record.bare_unlisting, hq, outline_of_find? hr]
      · rfl
    · rw [hfind]
      split
      · next hq => rw [Record.unlisting_eq_self fun a => hs r a hr, hq, hr]
      · rfl
  · rw [h.move_of_not hc] at hinv
    cases hinv

/-- An edit of one record that has an inverse is taken back by it. -/
theorem restore_edit {c : Command} (hc : ∀ cs, c ≠ .batch cs) (hn : t.AdoptsNothing c)
    (hinv : (t.apply l c).inverse? = some inv) :
    ((t.apply l c).tree.apply l inv).tree.SameOutline t ∧
      (t.SparesAggregations c → ((t.apply l c).tree.apply l inv).tree = t) := by
  cases c with
  | add parent r place => rw [apply] at hinv ⊢; exact restore_add h hn hinv
  | remove x => rw [apply] at hinv ⊢; exact restore_remove h hinv
  | update id p =>
      rw [apply] at hinv ⊢
      have heq := restore_update (l := l) h hinv
      exact ⟨heq.symm ▸ .refl t, fun _ => heq⟩
  | move source target place => rw [apply] at hinv ⊢; exact restore_move h hinv
  | batch cs => exact absurd rfl (hc cs)

/-- An edit of one record that has no inverse did nothing. -/
theorem tree_eq_of_inverse?_eq_none {c : Command} (hc : ∀ cs, c ≠ .batch cs)
    (hinv : (t.apply l c).inverse? = none) : (t.apply l c).tree = t := by
  by_cases heffective : t.Effective c
  · obtain ⟨inverse, hsome⟩ := h.exists_inverse_of_effective (l := l) hc heffective
    rw [hinv] at hsome
    cases hsome
  · rw [h.apply_of_not_effective hc heffective]
    rfl

end Edit

/-! ## Commands -/

mutual

/-- Each edit of a command that does something does it to a tree on which `P` holds of it; batches
are gone through at every depth. -/
def EachEdit (l : Library) (P : Tree → Command → Prop) : Command → Tree → Prop
  | .add parent r place, t => (t.add parent r place).inverse? ≠ none → P t (.add parent r place)
  | .remove x, t => (t.remove l x).inverse? ≠ none → P t (.remove x)
  | .update id p, t => (t.update id p).inverse? ≠ none → P t (.update id p)
  | .move source target place, t =>
    (t.move source target place).inverse? ≠ none → P t (.move source target place)
  | .batch cs, t => EachEditOf l P cs t

/-- The same for commands in order. -/
def EachEditOf (l : Library) (P : Tree → Command → Prop) : List Command → Tree → Prop
  | [], _ => True
  | c :: rest, t => EachEdit l P c t ∧ EachEditOf l P rest (t.apply l c).tree

end

/-- What is asked of each edit of a command is asked of its steps that do something. -/
theorem eachEdit_iff {l : Library} {P : Tree → Command → Prop} (c : Command) {t : Tree} :
    EachEdit l P c t ↔
      ∀ s ∈ t.steps l c, (s.1.apply l s.2).inverse? ≠ none → P s.1 s.2 := by
  induction c using Command.induction generalizing t with
  | edit c hc =>
      rw [steps_of_edit hc, List.forall_mem_singleton]
      cases c with
      | batch cs => exact absurd rfl (hc cs)
      | _ => rw [EachEdit, apply]
  | batch cs ih =>
      rw [steps, EachEdit]
      induction cs generalizing t with
      | nil => simp [stepsAll, EachEditOf]
      | cons c rest ihrest =>
          obtain ⟨ihc, ih⟩ := List.forall_mem_cons.1 ih
          rw [stepsAll, EachEditOf, List.forall_mem_append, ihc, ihrest ih]

theorem eachEdit_of_edit {l : Library} {P : Tree → Command → Prop} {c : Command}
    (hc : ∀ cs, c ≠ .batch cs) {t : Tree} :
    EachEdit l P c t ↔ ((t.apply l c).inverse? ≠ none → P t c) := by
  rw [eachEdit_iff, steps_of_edit hc, List.forall_mem_singleton]

theorem EachEdit.and {l : Library} {P Q : Tree → Command → Prop} {c : Command} {t : Tree}
    (h : EachEdit l P c t) (h' : EachEdit l Q c t) :
    EachEdit l (fun t c => P t c ∧ Q t c) c t :=
  eachEdit_iff c |>.2 fun s hs hinv =>
    ⟨(eachEdit_iff c).1 h s hs hinv, (eachEdit_iff c).1 h' s hs hinv⟩

/-- What each edit keeps, a command keeps. -/
theorem EachEdit.keeps {l : Library} {P : Tree → Command → Prop} {I : Tree → Prop}
    (hedit : ∀ {c t}, (∀ cs, c ≠ .batch cs) → t.WellFormed → I t →
      ((t.apply l c).inverse? ≠ none → P t c) → I (t.apply l c).tree)
    (c : Command) {t : Tree} (h : t.WellFormed) (ht : I t) (hc : EachEdit l P c t) :
    I (t.apply l c).tree := by
  induction c using Command.induction generalizing t with
  | edit c hsingle => exact hedit hsingle h ht ((eachEdit_of_edit hsingle).1 hc)
  | batch cs ih =>
      rw [EachEdit] at hc
      rw [apply]
      show I (applyAll l cs t).tree
      induction cs generalizing t with
      | nil => rwa [applyAll]
      | cons c rest ihrest =>
          obtain ⟨ihc, ih⟩ := List.forall_mem_cons.1 ih
          rw [EachEditOf] at hc
          rw [applyAll]
          exact ihrest ih (h.apply l c) (ihc h ht hc.1) hc.2

/-- A similarity of trees that all commands keep, and up to which the inverses of edits on which `P`
holds take them back. -/
structure Restoring (l : Library) (P : Tree → Command → Prop) (E : Tree → Tree → Prop) : Prop where
  refl : ∀ t, E t t
  symm : ∀ {t t'}, E t t' → E t' t
  trans : ∀ {t t' t''}, E t t' → E t' t'' → E t t''
  congr : ∀ (c : Command) {t t'}, E t t' → t.WellFormed → t'.WellFormed →
    E (t.apply l c).tree (t'.apply l c).tree
  edit : ∀ {c t inv}, t.WellFormed → (∀ cs, c ≠ .batch cs) → P t c →
    (t.apply l c).inverse? = some inv → E ((t.apply l c).tree.apply l inv).tree t

theorem restoring_outline (l : Library) : Restoring l AdoptsNothing SameOutline where
  refl := .refl
  symm := .symm
  trans := .trans
  congr c := SameOutline.apply l c
  edit h hc hn hinv := (restore_edit h hc hn hinv).1

theorem restoring_tree (l : Library) :
    Restoring l (fun t c => t.AdoptsNothing c ∧ t.SparesAggregations c) (· = ·) where
  refl _ := rfl
  symm := .symm
  trans := .trans
  congr c _ _ h _ _ := by rw [h]
  edit h hc hn hinv := (restore_edit h hc hn.1 hinv).2 hn.2

/-- The tree after several commands that follow each other. -/
theorem tree_applyAll_append (l : Library) (cs ds : List Command) (t : Tree) :
    (applyAll l (cs ++ ds) t).tree = (applyAll l ds (applyAll l cs t).tree).tree := by
  induction cs generalizing t with
  | nil => simp only [List.nil_append, applyAll]
  | cons c rest ih =>
      rw [List.cons_append, applyAll, applyAll]
      exact ih _

namespace Restoring

variable {l : Library} {P : Tree → Command → Prop} {E : Tree → Tree → Prop} (hE : Restoring l P E)

include hE

theorem congr_all (cs : List Command) {t t' : Tree} (h : E t t') (hw : t.WellFormed)
    (hw' : t'.WellFormed) : E (applyAll l cs t).tree (applyAll l cs t').tree := by
  induction cs generalizing t t' with
  | nil => simpa only [applyAll] using h
  | cons c rest ih =>
      rw [applyAll, applyAll]
      exact ih (hE.congr c h hw hw') (hw.apply l c) (hw'.apply l c)

theorem edit_toList {c : Command} {t : Tree} (h : t.WellFormed) (hc : ∀ cs, c ≠ .batch cs)
    (hp : (t.apply l c).inverse? ≠ none → P t c) :
    E (applyAll l (t.apply l c).inverse?.toList (t.apply l c).tree).tree t := by
  cases hinv : (t.apply l c).inverse? with
  | none =>
      rw [Option.toList_none, applyAll, tree_eq_of_inverse?_eq_none h hc hinv]
      exact hE.refl t
  | some inv =>
      rw [Option.toList_some, applyAll, applyAll]
      exact hE.edit h hc (hp (by simp [hinv])) hinv

/-- The inverse of a command, if it has one, takes it back; without one there is nothing to take
back. -/
theorem command (c : Command) {t : Tree} (h : t.WellFormed) (hp : EachEdit l P c t) :
    E (applyAll l (t.apply l c).inverse?.toList (t.apply l c).tree).tree t := by
  induction c using Command.induction generalizing t with
  | edit c hc => exact hE.edit_toList h hc ((eachEdit_of_edit hc).1 hp)
  | batch cs ih =>
      rw [EachEdit] at hp
      have hall : E (applyAll l (applyAll l cs t).inverses (applyAll l cs t).tree).tree t := by
        induction cs generalizing t with
        | nil =>
            simp only [applyAll]
            exact hE.refl t
        | cons c rest ihrest =>
            obtain ⟨ihc, ih⟩ := List.forall_mem_cons.1 ih
            rw [EachEditOf] at hp
            have hw := h.apply l c
            -- The later commands are taken back first, and lead to a tree like the one they began
            -- with.
            have hrest := ihrest ih hw hp.2
            rw [applyAll, tree_applyAll_append]
            exact hE.trans (hE.congr_all _ hrest ((hw.applyAll l rest).applyAll l _) hw)
              (ihc h hp.1)
      rw [apply]
      cases hinv : (applyAll l cs t).inverses with
      | nil =>
          rw [hinv] at hall
          simpa [Run.outcome, hinv] using hall
      | cons inv rest =>
          rw [hinv] at hall
          simp only [Run.outcome, hinv, List.isEmpty_cons, Bool.false_eq_true, if_false,
            Option.toList_some, applyAll, apply]
          rwa [applyAll] at hall

end Restoring

end Tree

end ColumnTree.Outline
