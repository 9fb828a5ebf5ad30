/-
# What trees are compiled to

One equation for every way in which a node is compiled, so that nothing else has to open `compile`.
A compiled formula matters by the columns that it reads and by its values: two that agree in these
are `Alike`, and each construction of compiled formulas takes alike parts to alike results.
-/
import ColumnTree.Formula.Recipe
import ColumnTree.Proofs.Except

namespace ColumnTree

theorem Library.resolve_eq_ok_iff {l : Library} {name : String} {f : Routine} :
    l.resolve name = .ok f ↔ l.find? name = some f := by
  unfold resolve
  split
  · next g hg => rw [hg, Except.ok.injEq, Option.some.injEq]
  · next hg => rw [hg]; exact ⟨nofun, nofun⟩

/-- A function is found under its own name. -/
theorem Library.name_of_resolve {l : Library} {name : String} {f : Routine}
    (h : l.resolve name = .ok f) : f.name = name := by
  simpa using List.find?_some (resolve_eq_ok_iff.1 h)

namespace Formula

/-! ## Nodes -/

section Nodes

variable {l : Library} {tag : Tag} {a b : Ast} {e : Expr}

theorem Tag.ne_of_shape {tag' : Tag} (h : tag.shape = .single ∨ tag.shape = .pair)
    (h' : tag' = .call ∨ tag' = .column) : tag ≠ tag' := by
  rintro rfl
  rcases h' with rfl | rfl <;> rcases h with h | h <;> cases h

theorem Ast.columns_node {children : List Ast} (h : tag ≠ .column) :
    (node tag children).columns = columnsOf children := by
  cases tag <;> first | rfl | exact absurd rfl h

theorem Ast.mem_columnsOf_iff {args : List Ast} {n : String} :
    n ∈ columnsOf args ↔ ∃ a ∈ args, n ∈ a.columns := by
  induction args with
  | nil => simp [columnsOf]
  | cons a args ih => simp [columnsOf, ih]

theorem columns_single (h : tag.shape = .single) : (Ast.node tag [a]).columns = a.columns := by
  rw [Ast.columns_node (Tag.ne_of_shape (.inl h) (.inr rfl))]
  exact List.append_nil _

theorem columns_pair (h : tag.shape = .pair) :
    (Ast.node tag [a, b]).columns = a.columns ++ b.columns := by
  rw [Ast.columns_node (Tag.ne_of_shape (.inr h) (.inr rfl))]
  exact congrArg _ (List.append_nil _)

theorem compile_leaf {read : String → Except Fault Expr} (h : tag.shape = .leaf read) (s : String) :
    compile l (.leaf tag s) = read s := by
  cases tag <;> cases h <;> rfl

theorem compile_single_eq (h : tag.shape = .single) :
    compile l (.node tag [a]) = do return single tag (← compile l a) := by
  cases tag <;> cases h <;> rfl

theorem compile_pair_eq (h : tag.shape = .pair) :
    compile l (.node tag [a, b]) = do return pair tag (← compile l a) (← compile l b) := by
  cases tag <;> cases h <;> rfl

theorem compile_call_eq {name : String} {args : List Ast} (h : tag.shape = .call) :
    compile l (.node tag (.token name :: args)) = do
      let f ← l.resolve name
      return .call f (← compileAll l args) := by
  cases tag <;> cases h
  rfl

theorem compile_single (h : tag.shape = .single) :
    compile l (.node tag [a]) = .ok e ↔ ∃ f, compile l a = .ok f ∧ e = single tag f := by
  simp only [compile_single_eq h, bind_eq_ok_iff, pure_eq_ok_iff, @eq_comm _ e]

theorem compile_pair (h : tag.shape = .pair) :
    compile l (.node tag [a, b]) = .ok e ↔
      ∃ f g, compile l a = .ok f ∧ compile l b = .ok g ∧ e = pair tag f g := by
  simp only [compile_pair_eq h, bind_eq_ok_iff, pure_eq_ok_iff, @eq_comm _ e, exists_and_left]

theorem compile_call {name : String} {args : List Ast} (h : tag.shape = .call) :
    compile l (.node tag (.token name :: args)) = .ok e ↔
      ∃ f es, l.resolve name = .ok f ∧ compileAll l args = .ok es ∧ e = .call f es := by
  simp only [compile_call_eq h, bind_eq_ok_iff, pure_eq_ok_iff, @eq_comm _ e, exists_and_left]

theorem compileAll_cons_eq (args : List Ast) :
    compileAll l (a :: args) = do return (← compile l a) :: (← compileAll l args) :=
  rfl

theorem compileAll_cons {args : List Ast} {es : List Expr} :
    compileAll l (a :: args) = .ok es ↔
      ∃ f fs, compile l a = .ok f ∧ compileAll l args = .ok fs ∧ es = f :: fs := by
  simp only [compileAll_cons_eq, bind_eq_ok_iff, pure_eq_ok_iff, @eq_comm _ es, exists_and_left]

theorem compileText_eq_ok_iff {t : String} :
    compileText l t = .ok e ↔ ∃ a, parse t = .ok a ∧ compile l a = .ok e := by
  unfold compileText
  cases parse t with
  | error => exact ⟨nofun, nofun⟩
  | ok a => simp

/-- Within a scope only formulas compile that read nothing else. -/
theorem compileScoped_eq_ok_iff {allowed : List String} {t : String} :
    compileScoped l allowed t = .ok e ↔ compileText l t = .ok e ∧ e.reads ⊆ allowed := by
  unfold compileScoped
  rw [bind_eq_ok_iff]
  have hmissing (f : Expr) :
      (f.distinctReads.filter fun n => !allowed.contains n) = [] ↔ f.reads ⊆ allowed := by
    rw [List.filter_eq_nil_iff]
    simp [Expr.distinctReads, List.mem_eraseDups, List.subset_def]
  constructor
  · rintro ⟨f, hf, h⟩
    split at h
    · next hnone =>
      obtain rfl := pure_eq_ok_iff.1 h
      exact ⟨hf, (hmissing f).1 hnone⟩
    · cases h
  · rintro ⟨hcompile, hsub⟩
    refine ⟨e, hcompile, ?_⟩
    rw [(hmissing e).2 hsub]
    rfl

theorem compileText_of_compileScoped {allowed : List String} {t : String}
    (h : compileScoped l allowed t = .ok e) : compileText l t = .ok e :=
  (compileScoped_eq_ok_iff.1 h).1

/-- Every operation but a custom one makes a formula, be it a good one or not. -/
theorem generate_eq_unchanged_iff {op : Operation} {cs : List Contribution} :
    generate l op cs = .unchanged ↔ op = .custom := by
  unfold generate
  cases op with
  | custom => exact ⟨fun _ => rfl, fun _ => rfl⟩
  | sum | mean | concat =>
      refine ⟨fun h => ?_, fun h => nomatch h⟩
      simp only [sourceOf, recipe, Option.map_some] at h
      split at h
      · cases h
      · split at h <;> cases h

/-- What is made is a formula if it compiles as the text that it is. -/
theorem generate_eq_valid_iff {op : Operation} {cs : List Contribution} {t : String} :
    generate l op cs = .valid t e ↔ sourceOf op cs = some t ∧ compileText l t = .ok e := by
  constructor
  · intro h
    unfold generate at h
    split at h
    · cases h
    · next s hs =>
      split at h
      · cases h
      · next a ha =>
        split at h
        · next f hf =>
          obtain ⟨rfl, rfl⟩ := Generated.valid.inj h
          exact ⟨hs, compileText_eq_ok_iff.2 ⟨a, ha, hf⟩⟩
        · cases h
  · rintro ⟨hs, hcompile⟩
    obtain ⟨a, ha, he⟩ := compileText_eq_ok_iff.1 hcompile
    simp only [generate, hs, ha, he]

end Nodes

/-! ## Values and columns of compiled formulas -/

namespace Expr

section Equations

variable (row : Row) (e f : Expr) (es : List Expr)

theorem eval_binary (op : Operator) :
    (binary op e f).eval row = op.apply (e.eval row) (f.eval row) :=
  rfl

theorem eval_either :
    (either e f).eval row = if (e.eval row).truthy then e.eval row else f.eval row :=
  rfl

theorem eval_both :
    (both e f).eval row = if (e.eval row).truthy then f.eval row else e.eval row :=
  rfl

theorem eval_index : (index e f).eval row = (e.eval row).index (f.eval row) :=
  rfl

theorem eval_negate : (negate e).eval row = (e.eval row).neg :=
  rfl

theorem eval_group : (group e).eval row = e.eval row :=
  rfl

theorem eval_call (r : Routine) : (call r es).eval row = r.apply (evalAll row es) :=
  rfl

theorem evalAll_cons : evalAll row (e :: es) = e.eval row :: evalAll row es :=
  rfl

theorem reads_binary (op : Operator) : (binary op e f).reads = e.reads ++ f.reads :=
  rfl

theorem reads_negate : (negate e).reads = e.reads :=
  rfl

theorem reads_group : (group e).reads = e.reads :=
  rfl

theorem reads_call (r : Routine) : (call r es).reads = readsAll es :=
  rfl

theorem readsAll_cons : readsAll (e :: es) = e.reads ++ readsAll es :=
  rfl

end Equations

theorem reads_pair (tag : Tag) (e f : Expr) : (pair tag e f).reads = e.reads ++ f.reads := by
  unfold pair
  split <;> rfl

theorem reads_single (tag : Tag) (e : Expr) : (single tag e).reads = e.reads := by
  unfold single
  split <;> rfl

/-! ## Compiled formulas that are alike -/

/-- The same columns are read, and the values are the same on every row. -/
structure Alike (e f : Expr) : Prop where
  reads_eq : e.reads = f.reads
  eval_eq : ∀ row, e.eval row = f.eval row

/-- Arguments that are alike one by one. -/
structure AlikeAll (es fs : List Expr) : Prop where
  reads_eq : readsAll es = readsAll fs
  eval_eq : ∀ row, evalAll row es = evalAll row fs

namespace Alike

variable {e f g e' f' : Expr} {es fs : List Expr}

theorem rfl : Alike e e :=
  ⟨Eq.refl _, fun _ => Eq.refl _⟩

theorem symm (h : Alike e f) : Alike f e :=
  ⟨h.reads_eq.symm, fun row => (h.eval_eq row).symm⟩

theorem trans (h : Alike e f) (h' : Alike f g) : Alike e g :=
  ⟨h.reads_eq.trans h'.reads_eq, fun row => (h.eval_eq row).trans (h'.eval_eq row)⟩

theorem pair (tag : Tag) (he : Alike e e') (hf : Alike f f') :
    Alike (pair tag e f) (pair tag e' f') := by
  constructor
  · rw [reads_pair, reads_pair, he.reads_eq, hf.reads_eq]
  · intro row
    unfold Formula.pair
    split <;> simp only [eval_binary, eval_either, eval_both, eval_index, he.eval_eq, hf.eval_eq]

theorem single (tag : Tag) (h : Alike e f) : Alike (single tag e) (single tag f) := by
  constructor
  · rw [reads_single, reads_single, h.reads_eq]
  · intro row
    unfold Formula.single
    split
    · rw [eval_negate, eval_negate, h.eval_eq]
    · rw [eval_group, eval_group, h.eval_eq]
    · exact h.eval_eq row

theorem call (r : Routine) (h : AlikeAll es fs) : Alike (.call r es) (.call r fs) := by
  constructor
  · rw [reads_call, reads_call, h.reads_eq]
  · intro row
    rw [eval_call, eval_call, h.eval_eq]

end Alike

theorem AlikeAll.nil : AlikeAll [] [] :=
  ⟨rfl, fun _ => rfl⟩

theorem AlikeAll.cons {e f : Expr} {es fs : List Expr} (h : Alike e f) (hs : AlikeAll es fs) :
    AlikeAll (e :: es) (f :: fs) := by
  constructor
  · rw [readsAll_cons, readsAll_cons, h.reads_eq, hs.reads_eq]
  · intro row
    rw [evalAll_cons, evalAll_cons, h.eval_eq, hs.eval_eq]

end Expr

end Formula

end ColumnTree
