/-
# What values depend on

A compiled formula has the same value on rows that agree on the columns that it reads, whatever they
hold elsewhere, and it reads no column that its tree does not mention.  This is said of all trees, not
only of those of the grammar.
-/
import ColumnTree.Proofs.Formula.Compiled

namespace ColumnTree.Formula

/-! ## Induction over trees and over compiled formulas -/

/-- Induction over compiled formulas, with a hypothesis for each argument of a call. -/
@[induction_eliminator]
theorem Expr.induction {P : Expr → Prop} (bool : ∀ b, P (.bool b)) (text : ∀ s, P (.text s))
    (number : ∀ written x, P (.number written x)) (euler : P .euler)
    (column : ∀ name, P (.column name))
    (binary : ∀ op left right, P left → P right → P (.binary op left right))
    (either : ∀ left right, P left → P right → P (.either left right))
    (both : ∀ left right, P left → P right → P (.both left right))
    (negate : ∀ e, P e → P (.negate e)) (group : ∀ e, P e → P (.group e))
    (call : ∀ f args, (∀ e ∈ args, P e) → P (.call f args))
    (index : ∀ target key, P target → P key → P (.index target key)) (e : Expr) : P e :=
  @Expr.rec P (fun es => ∀ e ∈ es, P e) bool text number euler column binary either both negate
    group call index nofun (fun _ _ h hs => List.forall_mem_cons.2 ⟨h, hs⟩) e

/-- Induction over trees, with a hypothesis for each child of a node. -/
@[induction_eliminator]
theorem Ast.induction {P : Ast → Prop}
    (node : ∀ tag children, (∀ a ∈ children, P a) → P (.node tag children))
    (token : ∀ t, P (.token t)) (a : Ast) : P a :=
  @Ast.rec P (fun as => ∀ a ∈ as, P a) node token nofun
    (fun _ _ h hs => List.forall_mem_cons.2 ⟨h, hs⟩) a

/-! ## Values -/

/-- Two rows that have the same cells in some columns. -/
def AgreeOn (names : List String) (row row' : Row) : Prop :=
  ∀ n ∈ names, row n = row' n

section Values

variable {names more : List String} {row row' : Row} {e : Expr}

theorem agreeOn_append :
    AgreeOn (names ++ more) row row' ↔ AgreeOn names row row' ∧ AgreeOn more row row' :=
  List.forall_mem_append

theorem AgreeOn.mono (h : AgreeOn names row row') (hsub : more ⊆ names) : AgreeOn more row row' :=
  fun n hn => h n (hsub hn)

theorem Expr.evalAll_eq_of_agreeOn {es : List Expr}
    (hes : ∀ e ∈ es, AgreeOn e.reads row row' → e.eval row = e.eval row')
    (h : AgreeOn (readsAll es) row row') : evalAll row es = evalAll row' es := by
  induction es with
  | nil => rfl
  | cons e es ih =>
      obtain ⟨he, hrest⟩ := agreeOn_append.1 h
      have hvalue : e.eval row = e.eval row' := hes e (List.mem_cons_self ..) he
      have hvalues : evalAll row es = evalAll row' es :=
        ih (fun f hf => hes f (List.mem_cons_of_mem _ hf)) hrest
      rw [evalAll_cons, evalAll_cons, hvalue, hvalues]

/-- The value depends only on the columns that are read, also where an operand is left out. -/
theorem Expr.eval_eq_of_agreeOn (h : AgreeOn e.reads row row') : e.eval row = e.eval row' := by
  induction e with
  | bool | text | number | euler => rfl
  | column name => exact h name (List.mem_singleton_self name)
  | binary _ _ _ ihl ihr | either _ _ ihl ihr | both _ _ ihl ihr | index _ _ ihl ihr =>
      obtain ⟨hl, hr⟩ := agreeOn_append.1 h
      simp only [eval_binary, eval_either, eval_both, eval_index, ihl hl, ihr hr]
  | negate _ ih | group _ ih =>
      simp only [eval_negate, eval_group, ih h]
  | call f args ih =>
      rw [eval_call, eval_call, evalAll_eq_of_agreeOn ih h]

end Values

/-! ## Trees of any shape -/

section Trees

variable {l : Library} {tag : Tag} {children : List Ast} {e : Expr}

/-- How a node of any shape comes to be compiled. -/
inductive CompilesNode (l : Library) (tag : Tag) : List Ast → Expr → Prop where
  | constant {children : List Ast} {e : Expr} :
      tag.shape = .constant e → CompilesNode l tag children e
  | leaf {read : String → Except Fault Expr} {t : String} {e : Expr} :
      tag.shape = .leaf read → read t = .ok e → CompilesNode l tag [.token t] e
  | single {a : Ast} {e : Expr} :
      tag.shape = .single → compile l a = .ok e → CompilesNode l tag [a] (single tag e)
  | pair {a b : Ast} {e f : Expr} : tag.shape = .pair → compile l a = .ok e →
      compile l b = .ok f → CompilesNode l tag [a, b] (pair tag e f)
  | call {name : String} {args : List Ast} {f : Routine} {es : List Expr} :
      tag.shape = .call → l.resolve name = .ok f → compileAll l args = .ok es →
        CompilesNode l tag (.token name :: args) (.call f es)

theorem onlyToken_eq_ok_iff {t : String} :
    onlyToken tag children = .ok t ↔ children = [.token t] := by
  unfold onlyToken
  split <;> simp_all [eq_comm]

theorem compilesNode_of_compile (h : compile l (.node tag children) = .ok e) :
    CompilesNode l tag children e := by
  unfold compile at h
  split at h
  · next htag =>
      obtain rfl := Except.ok.inj h
      exact .constant htag
  · next htag =>
      obtain ⟨t, ht, hread⟩ := bind_eq_ok_iff.1 h
      obtain rfl := onlyToken_eq_ok_iff.1 ht
      exact .leaf htag hread
  · next htag =>
      split at h
      · obtain ⟨f, hf, he⟩ := bind_eq_ok_iff.1 h
        obtain rfl := pure_eq_ok_iff.1 he
        exact .single htag hf
      · cases h
  · next htag =>
      split at h
      · obtain ⟨f, hf, h⟩ := bind_eq_ok_iff.1 h
        obtain ⟨g, hg, he⟩ := bind_eq_ok_iff.1 h
        obtain rfl := pure_eq_ok_iff.1 he
        exact .pair htag hf hg
      · cases h
  · next htag =>
      split at h
      · obtain ⟨r, hr, h⟩ := bind_eq_ok_iff.1 h
        obtain ⟨es, hes, he⟩ := bind_eq_ok_iff.1 h
        obtain rfl := pure_eq_ok_iff.1 he
        exact .call htag hr hes
      · cases h

theorem reads_constant (h : tag.shape = .constant e) : e.reads = [] := by
  cases tag <;> cases h <;> rfl

/-- Of the nodes over a token only a column reads one. -/
theorem reads_leaf {read : String → Except Fault Expr} {t : String} (h : tag.shape = .leaf read)
    (he : read t = .ok e) : e.reads = (Ast.leaf tag t).columns := by
  cases tag <;> cases h
  case text | column =>
    obtain rfl := Except.ok.inj he
    rfl
  case number =>
    simp only [compileNumber] at he
    split at he <;> cases he
    rfl

theorem readsAll_sublist {args : List Ast} {es : List Expr}
    (hargs : ∀ a ∈ args, ∀ {e}, compile l a = .ok e → e.reads.Sublist a.columns)
    (h : compileAll l args = .ok es) : (Expr.readsAll es).Sublist (Ast.columnsOf args) := by
  induction args generalizing es with
  | nil =>
      obtain rfl := Except.ok.inj h
      exact .slnil
  | cons a args ih =>
      obtain ⟨e, es, he, hes, rfl⟩ := compileAll_cons.1 h
      have hrest := ih (fun b hb => hargs b (List.mem_cons_of_mem _ hb)) hes
      exact (hargs a (List.mem_cons_self ..) he).append hrest

/-- Only columns that the tree mentions are read, in their order; those below a constant are not. -/
theorem reads_sublist {a : Ast} (h : compile l a = .ok e) : e.reads.Sublist a.columns := by
  induction a generalizing e with
  | token t => cases h
  | node tag children ih =>
      cases compilesNode_of_compile h with
      | constant htag =>
          rw [reads_constant htag]
          exact List.nil_sublist _
      | leaf htag hread =>
          rw [reads_leaf htag hread]
          exact List.Sublist.refl _
      | @single a f htag hf =>
          rw [Expr.reads_single, columns_single htag]
          exact ih a (List.mem_singleton_self a) hf
      | @pair a b f g htag hf hg =>
          rw [Expr.reads_pair, columns_pair htag]
          exact (ih a (by simp) hf).append (ih b (by simp) hg)
      | @call name args r es htag _ hes =>
          have hcolumn : tag ≠ .column := by
            rintro rfl
            cases htag
          rw [Ast.columns_node hcolumn]
          have hargs : (Expr.readsAll es).Sublist (Ast.columnsOf args) :=
            readsAll_sublist (fun a ha => ih a (List.mem_cons_of_mem _ ha)) hes
          exact hargs

/-- A tree that compiles has the same value on rows that agree on the columns that are read. -/
theorem eval_eq_of_compile {a : Ast} (h : compile l a = .ok e) :
    e.reads.Sublist a.columns ∧
      ∀ row row', AgreeOn e.reads row row' → e.eval row = e.eval row' := by
  refine ⟨reads_sublist h, fun row row' hagree => ?_⟩
  exact Expr.eval_eq_of_agreeOn hagree

/-- No reader makes this tree, and the rows differ in a column that it does not read. -/
theorem eval_eq_of_compile_disjunction :
    let a : Ast := .node .value [.node .disjunction [.leaf .column "a", .leaf .column "b"]]
    let e : Expr := .either (.column "a") (.column "b")
    let row : Row := fun n => if n = "c" then .bool true else .null
    let row' : Row := fun _ => .null
    compile .empty a = .ok e ∧ AgreeOn e.reads row row' ∧ row "c" ≠ row' "c" ∧
      e.reads.Sublist a.columns ∧ e.eval row = e.eval row' := by
  intro a e row row'
  have hcompile : compile .empty a = .ok e := rfl
  have hreads : e.reads = ["a", "b"] := rfl
  have hagree : AgreeOn e.reads row row' := by
    rw [hreads]
    exact List.forall_mem_cons.2 ⟨rfl, List.forall_mem_singleton.2 rfl⟩
  obtain ⟨hsub, heval⟩ := eval_eq_of_compile hcompile
  exact ⟨hcompile, hagree, nofun, hsub, heval row row' hagree⟩

theorem reads_subset_of_compileScoped {allowed : List String} {t : String}
    (h : compileScoped l allowed t = .ok e) : e.reads ⊆ allowed :=
  (compileScoped_eq_ok_iff.1 h).2

/-- What is compiled within a scope depends only on that scope. -/
theorem eval_eq_of_compileScoped {allowed : List String} {t : String} {row row' : Row}
    (h : compileScoped l allowed t = .ok e) (hagree : AgreeOn allowed row row') :
    e.eval row = e.eval row' :=
  Expr.eval_eq_of_agreeOn (hagree.mono (reads_subset_of_compileScoped h))

end Trees

end ColumnTree.Formula
