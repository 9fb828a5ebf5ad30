/-
# Taking back over whole runs

A run makes edits, gives formulas by hand and takes edits back, in any order.  Each entry of the log
belongs to the act that pushed it (`Pushes`); when the entry is popped, the tree is again as it was
just before that act: its outline in any case in which nothing was adopted, and all of it if
aggregations were spared.

The invariant is a stack of trees beside the log (`Stacked`).  The inverse of an entry takes the tree
that is there when it comes to the top to the tree that is stacked beside it.
-/
import ColumnTree.Proofs.Outline.Reached
import ColumnTree.Proofs.Outline.Restore

namespace ColumnTree.Outline

open Formula

/-- Something that is done with an editor. -/
inductive Act where
  | apply (c : Command)
  | setFormula (id : RecordId) (text : String)
  | undo

namespace Editor

/-! ## Runs -/

/-- The editor after an act; one that fails does nothing. -/
def act (e : Editor) : Act → Editor
  | .apply c => (e.apply c).1
  | .setFormula id text =>
    match e.setFormula id text with
    | .ok (e', _) => e'
    | .error _ => e
  | .undo => e.undo?.getD e

/-- The editor after several acts. -/
def run (e : Editor) (acts : List Act) : Editor :=
  acts.foldl act e

/-- At each step forward of a run, `P` holds of every edit that does something, on the tree that it
does it to. -/
def Keeps (P : Tree → Command → Prop) (e : Editor) (acts : List Act) : Prop :=
  ∀ before c after, acts = before ++ .apply c :: after →
    Tree.EachEdit e.library P c (e.run before).tree

/-- The entry of the log with so many others below it was pushed by an act of a run and has been
there ever since. -/
structure Pushes (e : Editor) (before : List Act) (a : Act) (between : List Act) (height : Nat) :
    Prop where
  height_eq : (e.run before).log.length = height
  pushed : (e.run (before ++ [a])).log.length = height + 1
  kept : ∀ some, some <+: between → height < (e.run (before ++ a :: some)).log.length

theorem run_snoc (e : Editor) (acts : List Act) (a : Act) :
    e.run (acts ++ [a]) = (e.run acts).act a := by
  rw [run, List.foldl_append]
  rfl

theorem Keeps.of_snoc {P : Tree → Command → Prop} {e : Editor} {acts : List Act} {a : Act}
    (h : e.Keeps P (acts ++ [a])) : e.Keeps P acts := by
  intro before c after heq
  exact h before c (after ++ [a]) (by rw [heq]; simp)

theorem Keeps.last {P : Tree → Command → Prop} {e : Editor} {acts : List Act} {c : Command}
    (h : e.Keeps P (acts ++ [.apply c])) : Tree.EachEdit e.library P c (e.run acts).tree :=
  h acts c [] rfl

/-! ## What an act does to the log -/

/-- The edit of a step forward. -/
inductive Forward (e : Editor) : Act → Command → Prop where
  | apply (c : Command) : Forward e (.apply c) c
  | setFormula (id : RecordId) (text : String) (p : Patch) :
      Forward e (.setFormula id text) (.update id p)

/-- An act makes an edit, pops an entry, or does nothing. -/
theorem act_cases (e : Editor) (a : Act) :
    (∃ c, e.Forward a c ∧ e.act a = (e.apply c).1) ∨
      (∃ last log, e.log = last :: log ∧
        e.act a = { e with tree := (e.tree.apply e.library last.inverse).tree, log }) ∨
      e.act a = e := by
  cases a with
  | apply c => exact .inl ⟨c, .apply c, rfl⟩
  | setFormula id text =>
      simp only [act]
      cases hset : e.setFormula id text with
      | error f => exact .inr (.inr rfl)
      | ok r =>
          obtain ⟨e', warnings⟩ := r
          obtain ⟨p, hp⟩ := exists_patch_of_setFormula hset
          exact .inl ⟨.update id p, .setFormula id text p, hp⟩
  | undo =>
      cases hundo : e.undo? with
      | none => exact .inr (.inr (by simp [act, hundo]))
      | some e' =>
          obtain ⟨last, log, hlog, rfl⟩ := undo?_eq_some_iff.1 hundo
          exact .inr (.inl ⟨last, log, hlog, by simp [act, hundo]⟩)

/-- An edit empties the log, pushes an entry with its inverse, or has no inverse. -/
theorem log_apply_cases (e : Editor) (c : Command) :
    (e.apply c).1.log = [] ∨
      (∃ inv, (e.tree.apply e.library c).inverse? = some inv ∧
        (e.apply c).1.log = ⟨c, inv⟩ :: e.log) ∨
      ((e.tree.apply e.library c).inverse? = none ∧ (e.apply c).1.log = e.log) := by
  simp only [apply]
  split
  · exact .inl rfl
  · right
    cases hinv : (e.tree.apply e.library c).inverse? with
    | none => exact .inr ⟨rfl, rfl⟩
    | some inv => exact .inl ⟨inv, rfl, rfl⟩

theorem library_act (e : Editor) (a : Act) : (e.act a).library = e.library := by
  rcases e.act_cases a with ⟨c, -, heq⟩ | ⟨last, log, -, heq⟩ | heq
  all_goals rw [heq]
  all_goals rfl

theorem Keeps.cons {P : Tree → Command → Prop} {e : Editor} {a : Act} {acts : List Act}
    (hfirst : ∀ c, a = .apply c → Tree.EachEdit e.library P c e.tree)
    (hrest : (e.act a).Keeps P acts) : e.Keeps P (a :: acts) := by
  intro before c after heq
  cases before with
  | nil => exact hfirst c (List.cons.inj heq).1
  | cons b before =>
      obtain ⟨rfl, htail⟩ := List.cons.inj heq
      rw [← e.library_act a]
      exact hrest before c after htail

theorem Keeps.nil (P : Tree → Command → Prop) (e : Editor) : e.Keeps P [] := by
  intro before c after heq
  simp at heq

theorem wellFormed_act {e : Editor} (h : e.tree.WellFormed) (a : Act) :
    (e.act a).tree.WellFormed := by
  rcases e.act_cases a with ⟨c, -, heq⟩ | ⟨last, log, -, heq⟩ | heq
  · rw [heq]; exact h.apply e.library c
  · rw [heq]; exact h.apply e.library last.inverse
  · rwa [heq]

theorem library_run (e : Editor) (acts : List Act) : (e.run acts).library = e.library := by
  induction acts using List.reverseRecOn with
  | nil => rfl
  | append_singleton acts a ih => rw [run_snoc, library_act, ih]

theorem wellFormed_run {e : Editor} (h : e.tree.WellFormed) (acts : List Act) :
    (e.run acts).tree.WellFormed := by
  induction acts using List.reverseRecOn with
  | nil => exact h
  | append_singleton acts a ih => rw [run_snoc]; exact wellFormed_act ih a

theorem length_log_act_le (e : Editor) (a : Act) : (e.act a).log.length ≤ e.log.length + 1 := by
  rcases e.act_cases a with ⟨c, -, heq⟩ | ⟨last, log, hlog, heq⟩ | heq
  · rw [heq]
    rcases e.log_apply_cases c with hlog | ⟨inv, -, hlog⟩ | ⟨-, hlog⟩ <;> simp [hlog]
  · rw [heq, hlog]
    simp only [List.length_cons]
    omega
  · rw [heq]
    omega

/-! ## Which act pushed an entry -/

theorem Pushes.of_snoc {e : Editor} {before between : List Act} {a b : Act} {height : Nat}
    (h : e.Pushes before a (between ++ [b]) height) : e.Pushes before a between height :=
  ⟨h.height_eq, h.pushed, fun _ hp => h.kept _ (hp.trans (List.prefix_append ..))⟩

theorem Pushes.lt {e : Editor} {before between : List Act} {a : Act} {height : Nat}
    (h : e.Pushes before a between height) :
    height < (e.run (before ++ a :: between)).log.length :=
  h.kept between (List.prefix_refl _)

/-- Every entry of the log was pushed by an act of the run. -/
theorem exists_pushes {e : Editor} (hlog : e.log = []) (acts : List Act) {height : Nat}
    (hheight : height < (e.run acts).log.length) :
    ∃ before a between, acts = before ++ a :: between ∧ e.Pushes before a between height := by
  induction acts using List.reverseRecOn with
  | nil => simp [run, hlog] at hheight
  | append_singleton acts a ih =>
      by_cases hlt : height < (e.run acts).log.length
      · obtain ⟨before, b, between, rfl, hpush⟩ := ih hlt
        refine ⟨before, b, between ++ [a], by simp, hpush.height_eq, hpush.pushed, ?_⟩
        intro some hsome
        rcases List.prefix_concat_iff.1 hsome with rfl | hsome
        · simpa using hheight
        · exact hpush.kept some hsome
      · have hle := (e.run acts).length_log_act_le a
        rw [← run_snoc] at hle
        refine ⟨acts, a, [], rfl, by omega, by omega, ?_⟩
        intro some hsome
        rw [List.prefix_nil.1 hsome]
        exact hheight

/-- The trees stacked beside a log are those just before the acts that pushed its entries. -/
def Remembers (e : Editor) (acts : List Act) (trees : List Tree) : Prop :=
  ∀ before a between height, acts = before ++ a :: between → e.Pushes before a between height →
    trees.reverse[height]? = some (e.run before).tree

/-- The last act of a run is the one that pushed an entry, or one after it. -/
theorem snoc_eq_append_cons {acts before between : List Act} {a b : Act}
    (h : acts ++ [b] = before ++ a :: between) :
    (between = [] ∧ acts = before ∧ b = a) ∨
      ∃ rest, between = rest ++ [b] ∧ acts = before ++ a :: rest := by
  rcases List.eq_nil_or_concat between with rfl | ⟨rest, c, rfl⟩
  · obtain ⟨h₁, h₂⟩ := List.append_inj' h rfl
    exact .inl ⟨rfl, h₁, by simpa using h₂⟩
  · rw [List.concat_eq_append, ← List.cons_append, ← List.append_assoc] at h
    obtain ⟨h₁, h₂⟩ := List.append_inj' h rfl
    obtain rfl : b = c := by simpa using h₂
    exact .inr ⟨rest, List.concat_eq_append, h₁⟩

theorem Remembers.push {e : Editor} {acts : List Act} {trees : List Tree}
    (h : e.Remembers acts trees) (hlength : trees.length = (e.run acts).log.length) (a : Act) :
    e.Remembers (acts ++ [a]) ((e.run acts).tree :: trees) := by
  intro before b between height heq hpush
  rw [List.reverse_cons]
  rcases snoc_eq_append_cons heq with ⟨rfl, rfl, rfl⟩ | ⟨rest, rfl, rfl⟩
  · rw [← hpush.height_eq, ← hlength, ← List.length_reverse, List.getElem?_concat_length]
  · have hrest := hpush.of_snoc
    rw [List.getElem?_append_left]
    · exact h before b rest height rfl hrest
    · rw [List.length_reverse, hlength]
      exact hrest.lt

theorem Remembers.keep {e : Editor} {acts : List Act} {trees trees' : List Tree} {a : Act}
    (h : e.Remembers acts trees) (hlength : trees.length = (e.run acts).log.length)
    (hlength' : trees'.length = (e.run (acts ++ [a])).log.length) (hsuffix : trees' <:+ trees) :
    e.Remembers (acts ++ [a]) trees' := by
  obtain ⟨gone, rfl⟩ := hsuffix
  rw [List.length_append] at hlength
  intro before b between height heq hpush
  rcases snoc_eq_append_cons heq with ⟨rfl, rfl, rfl⟩ | ⟨rest, rfl, rfl⟩
  · -- The last act has pushed nothing.
    have h₁ := hpush.height_eq
    have h₂ := hpush.pushed
    omega
  · have hrest := h before b rest height rfl hpush.of_snoc
    have hlt := hpush.lt
    rw [show before ++ b :: (rest ++ [a]) = before ++ b :: rest ++ [a] by simp, ← hlength',
      ← List.length_reverse] at hlt
    rwa [List.reverse_append, List.getElem?_append_left hlt] at hrest

/-! ## The stack of trees -/

/-- Each entry of a log takes the tree that is there when it is popped to the one stacked beside
it. -/
inductive Stacked (l : Library) (E : Tree → Tree → Prop) :
    List LogEntry → List Tree → Tree → Prop where
  | nil {t : Tree} : Stacked l E [] [] t
  | cons {entry : LogEntry} {log : List LogEntry} {s t : Tree} {trees : List Tree} :
      s.WellFormed → E (t.apply l entry.inverse).tree s → Stacked l E log trees s →
        Stacked l E (entry :: log) (s :: trees) t

namespace Stacked

variable {l : Library} {P : Tree → Command → Prop} {E : Tree → Tree → Prop}

theorem length_eq {log : List LogEntry} {trees : List Tree} {t : Tree}
    (h : Stacked l E log trees t) : trees.length = log.length := by
  induction h with
  | nil => rfl
  | cons _ _ _ ih => rw [List.length_cons, List.length_cons, ih]

/-- The tree may be replaced by a similar one. -/
theorem congr (hE : Tree.Restoring l P E) {log : List LogEntry} {trees : List Tree} {s t : Tree}
    (h : Stacked l E log trees s) (hts : E t s) (ht : t.WellFormed) (hs : s.WellFormed) :
    Stacked l E log trees t := by
  cases h with
  | nil => exact .nil
  | cons hw hback hrest => exact .cons hw (hE.trans (hE.congr _ hts ht hs) hback) hrest

end Stacked

section Run

variable {e : Editor} {P : Tree → Command → Prop} {E : Tree → Tree → Prop}
  (hE : Tree.Restoring e.library P E) (hupdate : ∀ t id p, P t (.update id p))
  (hw : e.tree.WellFormed) (hlog : e.log = [])

include hE hupdate hw hlog

/-- Beside the log of a run there is a stack of the trees just before its entries were pushed. -/
theorem exists_stacked {acts : List Act} (hkeeps : e.Keeps P acts) :
    ∃ trees, Stacked e.library E (e.run acts).log trees (e.run acts).tree ∧
      e.Remembers acts trees := by
  induction acts using List.reverseRecOn with
  | nil =>
      refine ⟨[], ?_, ?_⟩
      · rw [run, List.foldl_nil, hlog]
        exact .nil
      · intro before a between height heq
        simp at heq
  | append_singleton acts a ih =>
      obtain ⟨trees, hstack, hrem⟩ := ih hkeeps.of_snoc
      have hacts := wellFormed_run hw acts
      have hacts' := wellFormed_run hw (acts ++ [a])
      have hlib := e.library_run acts
      have hlength := hstack.length_eq
      have hsnoc := e.run_snoc acts a
      rcases (e.run acts).act_cases a with ⟨c, hforward, heq⟩ | ⟨last, log, hpop, heq⟩ | heq
      · rw [heq] at hsnoc
        have heach : Tree.EachEdit e.library P c (e.run acts).tree := by
          cases hforward with
          | apply c => exact hkeeps.last
          | setFormula id text p => rw [Tree.EachEdit]; exact fun _ => hupdate _ id p
        have hcommand := hE.command c hacts heach
        have htree : (e.run (acts ++ [a])).tree = ((e.run acts).tree.apply e.library c).tree := by
          rw [hsnoc, tree_apply, hlib]
        rcases (e.run acts).log_apply_cases c with hnil | ⟨inv, hinv, hcons⟩ | ⟨hnone, hsame⟩
        · refine ⟨[], ?_, hrem.keep hlength ?_ (List.nil_suffix)⟩
          · rw [hsnoc, hnil]
            exact .nil
          · rw [hsnoc, hnil]
            rfl
        · rw [hlib] at hinv
          rw [hinv, Option.toList_some, Tree.applyAll, Tree.applyAll] at hcommand
          refine ⟨(e.run acts).tree :: trees, ?_, hrem.push hlength a⟩
          rw [htree, hsnoc, hcons]
          exact .cons hacts hcommand hstack
        · rw [hlib] at hnone
          rw [hnone, Option.toList_none, Tree.applyAll] at hcommand
          have hlog' : (e.run (acts ++ [a])).log = (e.run acts).log := by rw [hsnoc, hsame]
          refine ⟨trees, ?_, hrem.keep hlength (by rw [hlog', hlength]) (List.suffix_refl _)⟩
          rw [hlog']
          exact hstack.congr hE (htree ▸ hcommand) hacts' hacts
      · rw [heq] at hsnoc
        rw [hpop] at hstack hlength
        cases hstack with
        | @cons _ _ s _ rest hs hback hrest =>
            have htree : (e.run (acts ++ [a])).tree =
                ((e.run acts).tree.apply e.library last.inverse).tree := by
              rw [hsnoc, hlib]
            have hlog' : (e.run (acts ++ [a])).log = log := by rw [hsnoc]
            refine ⟨rest, ?_, hrem.keep (by rw [hpop]; exact hlength) ?_ (List.suffix_cons ..)⟩
            · rw [hlog']
              exact hrest.congr hE (htree ▸ hback) hacts' hs
            · rw [hlog', hrest.length_eq]
      · rw [heq] at hsnoc
        refine ⟨trees, by rwa [hsnoc], hrem.keep hlength (by rw [hsnoc, hlength]) ?_⟩
        exact List.suffix_refl _

/-- When an entry is popped, the tree is like the one just before the act that pushed it. -/
theorem similar_of_undo? {acts : List Act} (hkeeps : e.Keeps P acts) {e' : Editor}
    (hundo : (e.run acts).undo? = some e') {before between : List Act} {a : Act}
    (heq : acts = before ++ a :: between) (hpush : e.Pushes before a between e'.log.length) :
    E e'.tree (e.run before).tree := by
  obtain ⟨trees, hstack, hrem⟩ := exists_stacked hE hupdate hw hlog hkeeps
  obtain ⟨last, log, hpop, rfl⟩ := undo?_eq_some_iff.1 hundo
  rw [hpop] at hstack
  cases hstack with
  | @cons _ _ s _ rest hs hback hrest =>
      have hs := hrem before a between _ heq hpush
      rw [List.reverse_cons, ← hrest.length_eq, ← List.length_reverse,
        List.getElem?_concat_length] at hs
      obtain rfl := Option.some.inj hs
      rw [← e.library_run acts] at hback
      exact hback

end Run

/-- Let a run begin with an empty log, and let no edit of it make a new record adopt others.
Whenever it takes an edit back, the entry that is popped was pushed by an act of the run, and the
tree has the outline that it had just before that act.  If all edits of the run spare aggregations,
then it is that tree. -/
theorem undo_restores_outline {e : Editor} (hw : e.tree.WellFormed) (hlog : e.log = [])
    {acts : List Act} (hadopt : e.Keeps Tree.AdoptsNothing acts) {e' : Editor}
    (hundo : (e.run acts).undo? = some e') :
    (∃ before a between, acts = before ++ a :: between ∧
        e.Pushes before a between e'.log.length) ∧
      ∀ before a between, acts = before ++ a :: between →
        e.Pushes before a between e'.log.length →
          e'.tree.SameOutline (e.run before).tree ∧
            (e.Keeps Tree.SparesAggregations acts → e'.tree = (e.run before).tree) := by
  refine ⟨?_, fun before a between heq hpush => ⟨?_, fun hspare => ?_⟩⟩
  · obtain ⟨last, log, hpop, rfl⟩ := undo?_eq_some_iff.1 hundo
    refine exists_pushes hlog acts ?_
    rw [hpop]
    exact Nat.lt_succ_self _
  · exact similar_of_undo? (Tree.restoring_outline e.library) (fun _ _ _ => trivial) hw hlog hadopt
      hundo heq hpush
  · refine similar_of_undo? (Tree.restoring_tree e.library) (fun _ _ _ => ⟨trivial, trivial⟩) hw
      hlog ?_ hundo heq hpush
    intro before c after hacts
    exact (hadopt before c after hacts).and (hspare before c after hacts)

/-- Of three edits the last one is taken back, and then the batch before it. -/
theorem undo_restores_outline_batch :
    let e : Editor := ofTree .empty (.alone "t")
    let first : Act := .apply (.add 0 (.column 1 "a") none)
    let acts : List Act := [first,
      .apply (.batch [.add 0 (.column 2 "b") (some 0), .update 1 { Patch.empty with name := "c" }]),
      .apply (.add 0 (.column 3 "d") none), .undo]
    ∃ e', (e.run acts).undo? = some e' ∧ e'.tree.SameOutline (e.run [first]).tree ∧
      e'.tree = (e.run [first]).tree := by
  intro e first acts
  have hw : e.tree.WellFormed := .alone "t"
  have hsecond := wellFormed_act hw first
  have hthird := wellFormed_act hsecond (acts[1])
  -- Each edit adds a record without children below the root or changes a name.
  have hkeeps : ∀ P : Tree → Command → Prop, (∀ t : Tree, t.WellFormed → ∀ id name place,
      P t (.add rootId (.column id name) place)) → (∀ t id p, P t (.update id p)) →
        e.Keeps P acts := by
    intro P hadd hupdate
    refine .cons ?_ (.cons ?_ (.cons ?_ (.cons ?_ (.nil P _))))
    · intro c hc
      obtain rfl := Act.apply.inj hc
      rw [Tree.EachEdit]
      exact fun _ => hadd _ hw _ _ _
    · rintro _ ⟨⟩
      rw [Tree.EachEdit, Tree.EachEditOf, Tree.EachEditOf, Tree.EachEditOf, Tree.EachEdit,
        Tree.EachEdit]
      exact ⟨fun _ => hadd _ hsecond _ _ _, fun _ => hupdate _ _ _, trivial⟩
    · rintro _ ⟨⟩
      rw [Tree.EachEdit]
      exact fun _ => hadd _ hthird _ _ _
    · rintro _ ⟨⟩
  have hadopt : e.Keeps Tree.AdoptsNothing acts :=
    hkeeps _ (fun t h id name place => Tree.adoptsNothing_of_children h.toLinked rfl _ place)
      fun _ _ _ => trivial
  have hspare : e.Keeps Tree.SparesAggregations acts :=
    hkeeps _ (fun t h id name place => h.sparesAggregations_root _ place) fun _ _ _ => trivial
  have hpush : e.Pushes [first] acts[1] acts.tail.tail 1 := by
    refine ⟨rfl, rfl, fun some hsome => ?_⟩
    rcases List.prefix_cons_iff.1 hsome with rfl | ⟨_, rfl, hrest⟩
    · decide
    · rcases List.prefix_cons_iff.1 hrest with rfl | ⟨_, rfl, hnil⟩
      · decide
      · rw [List.prefix_nil.1 hnil]
        decide
  obtain ⟨h₁, h₂⟩ := (undo_restores_outline hw rfl hadopt rfl).2 [first] _ _ rfl hpush
  exact ⟨_, rfl, h₁, h₂ hspare⟩

end Editor

end ColumnTree.Outline
