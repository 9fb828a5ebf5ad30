/-
# Formulas by hand

To give an aggregation a formula by hand is one edit, or nothing is done.  It fails for one of five
reasons (`Refuses`); else the aggregation holds the text as it is and lists the children that the text
mentions (`ListsNamed`), and taking the edit back gives the editor before it (`GivenByHand`).

What is listed decides what happens later on.  When a child leaves that the text does not mention, the
list stays, and so does the formula; but a text that mentions no child at all leaves the list empty
from the start, and then the formula is cleared when any child leaves (`byHand_survives_iff`).
-/
import ColumnTree.Proofs.Outline.Followed
import ColumnTree.Proofs.Outline.Undo

namespace ColumnTree.Outline

open Formula

/-! ## Children by name -/

namespace Tree

variable {t : Tree} {id : RecordId} {names : List String} {before after : List Contribution}

theorem mem_childRecords_iff {r : Record} :
    r ∈ t.childRecords id ↔ ∃ c ∈ t.children id, t.find? c = some r :=
  List.mem_filterMap

theorem mem_childNames_iff {n : String} :
    n ∈ t.childNames id ↔ ∃ c ∈ t.children id, ∃ r, t.find? c = some r ∧ r.name = n := by
  simp only [childNames, List.mem_map, mem_childRecords_iff]
  constructor
  · rintro ⟨r, ⟨c, hc, hr⟩, hn⟩
    exact ⟨c, hc, r, hr, hn⟩
  · rintro ⟨c, hc, r, hr, hn⟩
    exact ⟨r, ⟨c, hc, hr⟩, hn⟩

/-- A list of columns that holds the children with some names; `before` is a list that there was. -/
structure ListsNamed (t : Tree) (id : RecordId) (names : List String)
    (before after : List Contribution) : Prop where
  /-- The children are in their order. -/
  ids_eq : after.map (·.id) =
    (t.children id).filter fun c => (t.find? c).any fun r => names.contains r.name
  named : ∀ d ∈ after, ∃ r, t.find? d.id = some r ∧ d.name = r.name
  used : ∀ d ∈ after, d.used = true
  /-- What was listed keeps its weight. -/
  weight_eq : ∀ d ∈ after, d.weight = (before.find? fun b => b.id == d.id).elim 1.0 (·.weight)
  /-- No name is without a child. -/
  covered : ∀ n ∈ names, ∃ d ∈ after, d.name = n

namespace ListsNamed

theorem name_mem (h : t.ListsNamed id names before after) {d : Contribution} {r : Record}
    (hd : d ∈ after) (hr : t.find? d.id = some r) : r.name ∈ names := by
  have hmem : d.id ∈ after.map (·.id) := List.mem_map_of_mem hd
  rw [h.ids_eq, List.mem_filter, hr] at hmem
  simpa using hmem.2

/-- Something takes part just if there are names. -/
theorem exists_used_iff (h : t.ListsNamed id names before after) :
    (∃ d ∈ after, d.used = true) ↔ names ≠ [] := by
  constructor
  · rintro ⟨d, hd, -⟩ rfl
    obtain ⟨r, hr, -⟩ := h.named d hd
    exact List.not_mem_nil (h.name_mem hd hr)
  · intro hne
    obtain ⟨n, hn⟩ := List.exists_mem_of_ne_nil names hne
    obtain ⟨d, hd, -⟩ := h.covered n hn
    exact ⟨d, hd, h.used d hd⟩

end ListsNamed

/-- The children with a property, in their order. -/
theorem WellFormed.ids_filter_childRecords (h : t.WellFormed) (keep : Record → Bool) :
    ((t.childRecords id).filter keep).map (·.id) =
      (t.children id).filter fun c => (t.find? c).any keep := by
  unfold childRecords
  induction t.children id with
  | nil => rfl
  | cons c rest ih =>
      cases hr : t.find? c with
      | none => simpa [hr] using ih
      | some r =>
          have hid : r.id = c := h.named hr
          by_cases hkeep : keep r = true
          · simpa [hr, hkeep, hid] using ih
          · simpa [hr, hkeep] using ih

theorem contributionOf_eq (before : List Contribution) (r : Record) :
    Editor.contributionOf before r =
      ⟨r.id, r.name, (before.find? fun b => b.id == r.id).elim 1.0 (·.weight), true⟩ := by
  unfold Editor.contributionOf
  cases hfind : before.find? fun b => b.id == r.id with
  | none => rfl
  | some b =>
      have hid : b.id = r.id := by simpa using List.find?_some hfind
      simp [hid]

/-- The columns of a formula by hand are the children that it mentions. -/
theorem WellFormed.listsNamed_contributionOf (h : t.WellFormed) (before : List Contribution)
    (hnames : names ⊆ t.childNames id) :
    t.ListsNamed id names before (((t.childRecords id).filter fun r => names.contains r.name).map
      (Editor.contributionOf before)) := by
  have hmem : ∀ d ∈ ((t.childRecords id).filter fun r => names.contains r.name).map
      (Editor.contributionOf before), ∃ r, t.find? r.id = some r ∧
        d = ⟨r.id, r.name, (before.find? fun b => b.id == r.id).elim 1.0 (·.weight), true⟩ := by
    intro d hd
    obtain ⟨r, hr, rfl⟩ := List.mem_map.1 hd
    obtain ⟨c, -, hr⟩ := mem_childRecords_iff.1 (List.mem_filter.1 hr).1
    exact ⟨r, (h.named hr).symm ▸ hr, contributionOf_eq before r⟩
  constructor
  case ids_eq =>
    rw [← h.ids_filter_childRecords, List.map_map]
    refine List.map_congr_left fun r _ => ?_
    rw [Function.comp_apply, contributionOf_eq]
  case named =>
    intro d hd
    obtain ⟨r, hr, rfl⟩ := hmem d hd
    exact ⟨r, hr, rfl⟩
  case used =>
    intro d hd
    obtain ⟨r, -, rfl⟩ := hmem d hd
    rfl
  case weight_eq =>
    intro d hd
    obtain ⟨r, -, rfl⟩ := hmem d hd
    rfl
  case covered =>
    intro n hn
    obtain ⟨c, hc, r, hr, rfl⟩ := mem_childNames_iff.1 (hnames hn)
    have hchild : r ∈ t.childRecords id := mem_childRecords_iff.2 ⟨c, hc, hr⟩
    refine ⟨_, List.mem_map_of_mem (List.mem_filter.2 ⟨hchild, by simpa using hn⟩), ?_⟩
    rw [contributionOf_eq]

end Tree

namespace Editor

variable {e e' : Editor} {id : RecordId} {text : String}

/-! ## Why it fails -/

/-- The reasons not to give an aggregation a formula. -/
inductive Refuses (e : Editor) (id : RecordId) (text : String) : Prop where
  | noRecord : e.tree.find? id = none → Refuses e id text
  | noAggregation {r : Record} : e.tree.find? id = some r → r.kind ≠ .aggregation →
      Refuses e id text
  /-- The text is no formula. -/
  | unread {f : SyntaxFault} : parse text = .error f → Refuses e id text
  /-- The text calls a function that is not in the library. -/
  | unknown {ast : Ast} {name : String} : parse text = .ok ast → name ∈ ast.calls →
      name ∉ e.library.names → Refuses e id text
  /-- The text mentions a column that no child has the name of. -/
  | foreign {ast : Ast} {name : String} : parse text = .ok ast → name ∈ ast.columns →
      name ∉ e.tree.childNames id → Refuses e id text

/-- A text compiles for an aggregation if it is a formula, all functions are known and all columns
are children. -/
theorem compileFor_eq_ok_iff_of_parse {compiled : Expr} :
    e.compileFor id text = .ok compiled ↔
      ∃ r ast, e.tree.find? id = some r ∧ r.kind = .aggregation ∧ parse text = .ok ast ∧
        compile e.library ast = .ok compiled ∧ compiled.reads = ast.columns ∧
        ast.columns ⊆ e.tree.childNames id := by
  rw [compileFor_eq_ok_iff]
  constructor
  · rintro ⟨r, hr, hk, hscoped⟩
    obtain ⟨htext, hsub⟩ := compileScoped_eq_ok_iff.1 hscoped
    obtain ⟨ast, hparse, hcompile⟩ := compileText_eq_ok_iff.1 htext
    have hreads := (shaped_of_parse hparse).declares.reads_eq hcompile
    exact ⟨r, ast, hr, hk, hparse, hcompile, hreads, hreads ▸ hsub⟩
  · rintro ⟨r, ast, hr, hk, hparse, hcompile, hreads, hsub⟩
    have htext := compileText_eq_ok_iff.2 ⟨ast, hparse, hcompile⟩
    exact ⟨r, hr, hk, compileScoped_eq_ok_iff.2 ⟨htext, hreads ▸ hsub⟩⟩

theorem exists_compileFor_of_not_refuses (h : ¬ e.Refuses id text) :
    ∃ compiled, e.compileFor id text = .ok compiled := by
  cases hr : e.tree.find? id with
  | none => exact absurd (.noRecord hr) h
  | some r =>
      by_cases hk : r.kind = .aggregation
      · cases hparse : parse text with
        | error f => exact absurd (.unread hparse) h
        | ok ast =>
            have hdeclares : Declares e.library ast := (shaped_of_parse hparse).declares
            have hcalls : ∀ n ∈ ast.calls, n ∈ e.library.names := by
              intro n hn
              by_contra hno
              exact h (.unknown hparse hn hno)
            have hcolumns : ast.columns ⊆ e.tree.childNames id := by
              intro n hn
              by_contra hno
              exact h (.foreign hparse hn hno)
            obtain ⟨compiled, hcompile⟩ :=
              hdeclares.exists_compile_iff.2 (Library.resolveAll_eq_ok_iff.2 hcalls)
            exact ⟨compiled, compileFor_eq_ok_iff_of_parse.2 ⟨r, ast, hr, hk, hparse, hcompile,
              hdeclares.reads_eq hcompile, hcolumns⟩⟩
      · exact absurd (.noAggregation hr hk) h

theorem Refuses.not_compileFor {compiled : Expr} (h : e.Refuses id text) :
    e.compileFor id text ≠ .ok compiled := by
  intro hcompiled
  obtain ⟨r, ast, hr, hk, hparse, hcompile, -, hsub⟩ := compileFor_eq_ok_iff_of_parse.1 hcompiled
  have hdeclares : Declares e.library ast := (shaped_of_parse hparse).declares
  cases h with
  | noRecord hno => cases hno.symm.trans hr
  | noAggregation hr' hk' =>
      obtain rfl := Option.some.inj (hr.symm.trans hr')
      exact hk' hk
  | unread hno => cases hno.symm.trans hparse
  | unknown hparse' hn hno =>
      obtain rfl := Except.ok.inj (hparse.symm.trans hparse')
      exact hno (Library.resolveAll_eq_ok_iff.1
        (hdeclares.exists_compile_iff.1 ⟨compiled, hcompile⟩) _ hn)
  | foreign hparse' hn hno =>
      obtain rfl := Except.ok.inj (hparse.symm.trans hparse')
      exact hno (hsub hn)

/-- A formula by hand is refused for one of the reasons, and for no other. -/
theorem setFormula_eq_error_iff :
    (∃ f, e.setFormula id text = .error f) ↔ e.Refuses id text := by
  constructor
  · rintro ⟨f, hf⟩
    by_contra hno
    obtain ⟨compiled, hcompiled⟩ := exists_compileFor_of_not_refuses hno
    cases hf.symm.trans (setFormula_eq_ok_iff.2 ⟨compiled, hcompiled, rfl⟩)
  · intro h
    cases hset : e.setFormula id text with
    | error f => exact ⟨f, rfl⟩
    | ok o =>
        obtain ⟨compiled, hcompiled, -⟩ := setFormula_eq_ok_iff.1 hset
        exact absurd hcompiled h.not_compileFor

/-! ## What it does -/

/-- The editor `e'` comes from `e` by giving an aggregation the formula `text` by hand; `r` is its
record before, and `a` the aggregation after. -/
structure GivenByHand (e : Editor) (id : RecordId) (text : String) (r : Record) (ast : Ast)
    (compiled : Expr) (a : Aggregation) (e' : Editor) : Prop where
  record_eq : e.tree.find? id = some r
  kind_eq : r.kind = .aggregation
  parse_eq : parse text = .ok ast
  compile_eq : compile e.library ast = .ok compiled
  operation_eq : a.operation = .custom
  formula_eq : a.formula = text
  exec_eq : a.exec = compiled.exec
  /-- The children that the text mentions are listed. -/
  listed : e.tree.ListsNamed id ast.columns (r.aggregation?.elim [] (·.columns)) a.columns
  /-- Only the aggregation changes. -/
  find?_eq : ∀ q, e'.tree.find? q =
    if q = id then some { r with aggregation? := some a } else e.tree.find? q
  parent?_eq : ∀ q, e'.tree.parent? q = e.tree.parent? q
  library_eq : e'.library = e.library
  /-- One edit is logged. -/
  log_eq : ∃ entry, e'.log = entry :: e.log
  undo?_eq : e'.undo? = some e

theorem GivenByHand.find?_self {r : Record} {ast : Ast} {compiled : Expr} {a : Aggregation}
    (hg : e.GivenByHand id text r ast compiled a e') :
    e'.tree.find? id = some { r with aggregation? := some a } := by
  rw [hg.find?_eq, if_pos rfl]

/-- To give or to take away an aggregation is one edit. -/
theorem apply_ofAggregation {r : Record} (hr : e.tree.find? id = some r)
    (a : Option Aggregation) : e.apply (.update id (.ofAggregation a)) =
      ({ e with
          tree := (e.tree.update id (.ofAggregation a)).tree
          log := ⟨.update id (.ofAggregation a), .update id (.ofAggregation r.aggregation?)⟩ ::
            e.log }, []) := by
  have hdone := Tree.update_of_find? (p := .ofAggregation a) hr
  rw [Patch.allowed_ofAggregation, if_neg (by simp [Patch.isEmpty, Patch.ofAggregation])] at hdone
  simp only [apply, Tree.apply, hdone]
  rfl

/-- Taken back, it leaves the editor as it was. -/
theorem Reached.undo?_apply_ofAggregation (h : e.Reached) {r : Record}
    (hr : e.tree.find? id = some r) (a : Option Aggregation) :
    (e.apply (.update id (.ofAggregation a))).1.undo? = some e := by
  have hback := Tree.update_update h.wellFormed hr (.ofAggregation a)
  rw [Patch.allowed_ofAggregation] at hback
  rw [apply_ofAggregation hr, undo?_eq_some_iff]
  refine ⟨_, _, rfl, ?_⟩
  rw [Tree.apply]
  exact congrArg (fun t => { e with tree := t }) hback.symm

theorem Reached.givenByHand (h : e.Reached) {ws : List Warning}
    (hset : e.setFormula id text = .ok (e', ws)) :
    ws = [] ∧ ∃ r ast compiled a, e.GivenByHand id text r ast compiled a e' := by
  obtain ⟨compiled, hcompiled, heq⟩ := setFormula_eq_ok_iff.1 hset
  obtain ⟨r, ast, hr, hk, hparse, hcompile, hreads, hsub⟩ :=
    compileFor_eq_ok_iff_of_parse.1 hcompiled
  let a := byHand (r.aggregation?.getD .standard) (e.tree.childRecords id) text compiled
  obtain ⟨rfl, rfl⟩ : e' = (e.apply (.update id (.ofAggregation (some a)))).1 ∧
      ws = (e.apply (.update id (.ofAggregation (some a)))).2 := by
    rw [hr] at heq
    exact Prod.mk.inj heq
  have happly := apply_ofAggregation hr (some a)
  have hundo := h.undo?_apply_ofAggregation hr (some a)
  refine ⟨congrArg Prod.snd happly, r, ast, compiled, a, hr, hk, hparse, hcompile, rfl, rfl, rfl,
    ?_, ?_, ?_, rfl, ⟨_, congrArg (·.1.log) happly⟩, hundo⟩
  · have hbefore : (r.aggregation?.getD .standard).columns = r.aggregation?.elim [] (·.columns) := by
      cases r.aggregation? with
      | none => rfl
      | some before => rfl
    rw [← hreads] at hsub
    rw [← hbefore, ← hreads]
    exact h.wellFormed.listsNamed_contributionOf _ hsub
  · intro q
    rw [tree_apply, Tree.apply, Tree.find?_update hr, Patch.apply_ofAggregation]
  · intro q
    rw [tree_apply, Tree.apply, Tree.parent?, Tree.parents_update]
    rfl

/-- In every editor, giving an aggregation a formula by hand fails just if there is no such record,
it is no aggregation, the text is no formula, it calls a function that is not known or it mentions a
column that is no child; and then nothing is done.  Else the aggregation is custom, holds the text as
it is and what it is executed as, and lists the children that are mentioned, all as taking part and
with the weights that they had; nothing else changes, one edit is logged, and taking it back gives the
editor before. -/
theorem Reached.setFormula_spec (h : e.Reached) (id : RecordId) (text : String) :
    ((∃ f, e.setFormula id text = .error f) ↔ e.Refuses id text) ∧
      (∀ f, e.setFormula id text = .error f → e.act (.setFormula id text) = e) ∧
      ∀ e' ws, e.setFormula id text = .ok (e', ws) → e.act (.setFormula id text) = e' ∧
        ws = [] ∧ ∃ r ast compiled a, e.GivenByHand id text r ast compiled a e' := by
  refine ⟨setFormula_eq_error_iff, fun f hf => ?_, fun e' ws hset => ⟨?_, h.givenByHand hset⟩⟩
  · simp only [act, hf]
  · simp only [act, hset]

/-- A mean of which nothing takes part, with a column listed that is no child. -/
def idleMean : Aggregation :=
  ⟨.mean, "", "", [⟨9, "x", 7, true⟩, ⟨3, "b", 2, false⟩]⟩

/-- A formula without calls is given to it if it mentions only the two children, and then the first of
these is still there. -/
theorem exists_setFormula_idleMean {ast : Ast} (hparse : parse text = .ok ast)
    (hcalls : ast.calls = []) (hcolumns : ast.columns ⊆ ["a", "b"]) :
    ∃ e', (totalOf idleMean).setFormula 1 text = .ok (e', []) ∧ 2 ∈ e'.tree.children 1 ∧
      e'.tree.find? 2 = some { Record.column 2 "a" with children := [4] } := by
  have hr := find?_totalOf idleMean
  have hnames : (totalOf idleMean).tree.childNames 1 = ["a", "b"] := rfl
  have hnot : ¬ (totalOf idleMean).Refuses 1 text := by
    intro h
    cases h with
    | noRecord hno => cases hno.symm.trans hr
    | noAggregation hr' hk =>
        obtain rfl := Option.some.inj (hr.symm.trans hr')
        exact hk rfl
    | unread hno => cases hno.symm.trans hparse
    | unknown hparse' hn _ =>
        obtain rfl := Except.ok.inj (hparse.symm.trans hparse')
        rw [hcalls] at hn
        cases hn
    | foreign hparse' hn hno =>
        obtain rfl := Except.ok.inj (hparse.symm.trans hparse')
        rw [hnames] at hno
        exact hno (hcolumns hn)
  cases hset : (totalOf idleMean).setFormula 1 text with
  | error f => exact absurd (setFormula_eq_error_iff.1 ⟨f, hset⟩) hnot
  | ok o =>
      obtain ⟨e', ws⟩ := o
      obtain ⟨rfl, r, ast', compiled, a, hg⟩ := (reached_totalOf idleMean).givenByHand hset
      obtain rfl := Option.some.inj (hr.symm.trans hg.record_eq)
      refine ⟨e', rfl, ?_, ?_⟩
      · rw [Tree.children_of_find? hg.find?_self]
        exact List.mem_cons_self ..
      · rw [hg.find?_eq, if_neg (by decide)]
        exact find?_totalOf_child idleMean

/-- The text mentions the second child first, and twice; the first child was not listed, and the
second keeps its weight.  A column below a child is no child. -/
theorem setFormula_spec_idleMean :
    let e := totalOf idleMean
    e.Reached ∧
      (∃ e' r, ∃ a : Aggregation, e.setFormula 1 "$(b) * $(a) - $(b)" = .ok (e', []) ∧
        e'.tree.find? 1 = some r ∧ r.aggregation? = some a ∧ a.columns.map (·.id) = [2, 3] ∧
        (∀ d ∈ a.columns, d.id = 3 → d.weight = 2) ∧ e'.undo? = some e) ∧
      (∃ f, e.setFormula 1 "$(c)" = .error f) ∧ e.act (.setFormula 1 "$(c)") = e := by
  intro e
  have hreached : e.Reached := reached_totalOf idleMean
  constructor
  · exact hreached
  constructor
  · obtain ⟨ast, hparse, hcalls, hcolumns⟩ :=
      exists_parse_of_names "$(b) * $(a) - $(b)" [] ["b", "a", "b"] (by decide +kernel)
    obtain ⟨e', hset, -⟩ := exists_setFormula_idleMean hparse hcalls (by rw [hcolumns]; decide)
    obtain ⟨-, -, hgiven⟩ := Reached.setFormula_spec hreached 1 "$(b) * $(a) - $(b)"
    obtain ⟨-, -, r, ast', compiled, a, hg⟩ := hgiven _ _ hset
    obtain rfl := Option.some.inj ((find?_totalOf idleMean).symm.trans hg.record_eq)
    obtain rfl := Except.ok.inj (hparse.symm.trans hg.parse_eq)
    refine ⟨e', _, a, hset, hg.find?_self, rfl, ?_, ?_, hg.undo?_eq⟩
    · rw [hg.listed.ids_eq, hcolumns]
      rfl
    · intro d hd hid
      rw [hg.listed.weight_eq d hd, hid]
      rfl
  · obtain ⟨hiff, hsame, -⟩ := Reached.setFormula_spec hreached 1 "$(c)"
    obtain ⟨ast, hparse, -, hcolumns⟩ := exists_parse_of_names "$(c)" [] ["c"] (by decide +kernel)
    have hmem : "c" ∈ ast.columns := by
      rw [hcolumns]
      exact List.mem_singleton.2 rfl
    have hnot : "c" ∉ e.tree.childNames 1 := by decide
    obtain ⟨f, hf⟩ := hiff.2 (.foreign hparse hmem hnot)
    exact ⟨⟨f, hf⟩, hsame f hf⟩

/-! ## When a child leaves -/

namespace GivenByHand

variable {r : Record} {ast : Ast} {compiled : Expr} {a : Aggregation}

/-- A formula that was given is not the empty text. -/
theorem cleared_ne (hg : e.GivenByHand id text r ast compiled a e') : a.cleared ≠ a := by
  intro heq
  have hformula : a.formula = "" := (congrArg Aggregation.formula heq).symm
  exact ne_empty_of_parse hg.parse_eq (hg.formula_eq.symm.trans hformula)

/-- The formula stays when a child leaves that the text does not mention, unless the text mentions no
child at all. -/
theorem find?_remove (hg : e.GivenByHand id text r ast compiled a e') (h' : e'.tree.WellFormed)
    (l : Library) {c : RecordId} {gone : Record} (hc : c ∈ e'.tree.children id)
    (hgone : e'.tree.find? c = some gone) (hname : gone.name ∉ ast.columns) :
    ∃ after, (e'.tree.remove l c).tree.find? id =
        some { r.splicing c gone.children with aggregation? := some after } ∧
      (ast.columns ≠ [] → after = a) ∧
      (ast.columns = [] → after = a.cleared ∧ (e'.tree.remove l c).warnings = [.cleared r.name]) := by
  have hci : c ≠ id := h'.ne_of_mem hc
  obtain ⟨gone', after, hgone', hid, hfind, hfollows⟩ :=
    h'.follows_removed l (h'.parent_iff.2 hc) hg.find?_self hg.kind_eq rfl
  obtain rfl := Option.some.inj (hgone.symm.trans hgone')
  -- The child is not listed, for the text does not mention it; so the list stays.
  have hunlisted : a.lists gone.id = false := by
    by_contra hlists
    obtain ⟨d, hd, hdc⟩ := Aggregation.lists_iff.1 (by simpa using hlists)
    rw [hg.find?_eq, if_neg hci, ← hid, ← hdc] at hgone
    exact hname (hg.listed.name_mem hd hgone)
  have hcolumns : after.columns = a.columns := by
    rw [hfollows.columns_eq]
    exact congrArg Aggregation.columns (Aggregation.without_eq_self hunlisted)
  have hactive : after.Active ↔ ast.columns ≠ [] := by
    rw [Aggregation.Active, hcolumns]
    exact hg.listed.exists_used_iff
  refine ⟨after, hfind, fun hne => ?_, fun hnone => ?_⟩
  · obtain ⟨hformula, hexec, -⟩ := hfollows.custom (hactive.2 hne) hg.operation_eq
    exact Aggregation.ext hfollows.operation_eq hformula hexec hcolumns
  · obtain ⟨hformula, hexec, hwarnings⟩ := hfollows.idle fun hA => hactive.1 hA hnone
    exact ⟨Aggregation.ext hfollows.operation_eq hformula hexec hcolumns, hwarnings⟩

end GivenByHand

/-- A child leaves that a formula by hand does not mention.  The aggregation stays as it was given
just if the formula mentions some column; else it is cleared, with one warning. -/
theorem Reached.byHand_survives_iff (h : e.Reached) {ws : List Warning}
    (hset : e.setFormula id text = .ok (e', ws)) {ast : Ast} (hparse : parse text = .ok ast)
    {c : RecordId} {gone : Record} (hc : c ∈ e'.tree.children id)
    (hgone : e'.tree.find? c = some gone) (hname : gone.name ∉ ast.columns) :
    ∃ r a r', e'.tree.find? id = some r ∧ r.aggregation? = some a ∧
      (e'.apply (.remove c)).1.tree.find? id = some r' ∧
      (r'.aggregation? = some a ↔ ast.columns ≠ []) ∧
      (ast.columns = [] → r'.aggregation? = some a.cleared ∧
        (e'.apply (.remove c)).2 = [.cleared r.name]) := by
  obtain ⟨-, r, ast', compiled, a, hg⟩ := h.givenByHand hset
  obtain rfl := Except.ok.inj (hparse.symm.trans hg.parse_eq)
  obtain ⟨after, hfind, hstays, hcleared⟩ :=
    hg.find?_remove (Reached.setFormula h hset).wellFormed e'.library hc hgone hname
  refine ⟨_, a, _, hg.find?_self, rfl, hfind, ⟨?_, fun hne => ?_⟩, fun hnone => ?_⟩
  · intro hsame hnone
    exact hg.cleared_ne ((hcleared hnone).1.symm.trans (Option.some.inj hsame))
  · rw [hstays hne]
  · obtain ⟨hafter, hwarnings⟩ := hcleared hnone
    exact ⟨congrArg some hafter, hwarnings⟩

/-- The text mentions the second child, and the first one leaves. -/
theorem byHand_survives_product :
    let e := totalOf idleMean
    e.Reached ∧ ∃ ast e', parse "$(b) * 2" = .ok ast ∧
      e.setFormula 1 "$(b) * 2" = .ok (e', []) ∧ 2 ∈ e'.tree.children 1 ∧
      e'.tree.find? 2 = some { Record.column 2 "a" with children := [4] } ∧ "a" ∉ ast.columns ∧
      ∃ r a r', e'.tree.find? 1 = some r ∧ r.aggregation? = some a ∧
        (e'.apply (.remove 2)).1.tree.find? 1 = some r' ∧ r'.aggregation? = some a := by
  intro e
  have hreached : e.Reached := reached_totalOf idleMean
  obtain ⟨ast, hparse, hcalls, hcolumns⟩ :=
    exists_parse_of_names "$(b) * 2" [] ["b"] (by decide +kernel)
  have hname : "a" ∉ ast.columns := by
    rw [hcolumns]
    decide
  have hreads : ast.columns ≠ [] := by
    rw [hcolumns]
    decide
  obtain ⟨e', hset, hc, hgone⟩ := exists_setFormula_idleMean hparse hcalls (by rw [hcolumns]; decide)
  obtain ⟨r, a, r', hr, ha, hr', hiff, -⟩ :=
    Reached.byHand_survives_iff hreached hset hparse hc hgone hname
  exact ⟨hreached, ast, e', hparse, hset, hc, hgone, hname, r, a, r', hr, ha, hr', hiff.2 hreads⟩

/-- A formula by hand need not survive when a child leaves that it does not mention: a number does
not. -/
theorem not_forall_byHand_survives : ¬ ∀ (e e' : Editor) (g c : RecordId) (text : String)
    (ws : List Warning) (ast : Ast) (gone r : Record) (a : Aggregation), e.Reached →
    e.setFormula g text = .ok (e', ws) → parse text = .ok ast → c ∈ e'.tree.children g →
    e'.tree.find? c = some gone → gone.name ∉ ast.columns → e'.tree.find? g = some r →
    r.aggregation? = some a →
    ∃ r', (e'.apply (.remove c)).1.tree.find? g = some r' ∧ r'.aggregation? = some a := by
  intro hall
  have hreached := reached_totalOf idleMean
  obtain ⟨ast, hparse, hcalls, hcolumns⟩ := exists_parse_of_names "42" [] [] (by decide +kernel)
  have hname : "a" ∉ ast.columns := by
    rw [hcolumns]
    exact List.not_mem_nil
  obtain ⟨e', hset, hc, hgone⟩ := exists_setFormula_idleMean hparse hcalls (by rw [hcolumns]; decide)
  obtain ⟨-, r, ast', compiled, a, hg⟩ := hreached.givenByHand hset
  obtain rfl := Except.ok.inj (hparse.symm.trans hg.parse_eq)
  obtain ⟨r', hr', hsame⟩ := hall _ e' 1 2 "42" [] _ _ _ a hreached hset hparse hc hgone hname
    hg.find?_self rfl
  obtain ⟨after, hfind, -, hcleared⟩ :=
    hg.find?_remove (Reached.setFormula hreached hset).wellFormed e'.library hc hgone hname
  obtain rfl := Option.some.inj (hfind.symm.trans hr')
  exact hg.cleared_ne ((hcleared hcolumns).1.symm.trans (Option.some.inj hsame))

end Editor

end ColumnTree.Outline
