/-
# What formulas made from columns read

A formula is made by pasting the names of its columns between `$(` and `)`.  It reads the columns that
it was made from just if all their names can stand there as they are (`reads_of_generate`).

What is read is followed from the terms of a sum to the whole formula: each term reads one column,
whatever it compiles to (`ReadsColumn`).  In the other direction, what a formula reads is always a name
that can stand in a reference.
-/
import ColumnTree.Proofs.Formula.Composed
import ColumnTree.Proofs.Formula.Declared

namespace ColumnTree.Formula

variable {l : Library} {v : Level} {x : List Char} {e : Expr}

/-! ## Names that can be read -/

/-- Whatever a tree compiles to reads only such columns. -/
def ReadsOnly (l : Library) (P : String → Prop) (a : Ast) : Prop :=
  ∀ e, compile l a = .ok e → ∀ n ∈ e.reads, P n

/-- The columns that a tree of the grammar mentions have names that can stand in a reference. -/
theorem Shaped.isColumnName {a : Ast} (h : Shaped v a) : ∀ n ∈ a.columns, IsColumnName n.toList := by
  induction h with
  | loosen _ _ ih => exact ih
  | binary htag _ _ iha ihb =>
      rw [columns_pair (Tag.shape_of_levels? htag)]
      exact List.forall_mem_append.2 ⟨iha, ihb⟩
  | negation _ ih | parentheses _ ih =>
      rw [columns_single rfl]
      exact ih
  | index _ _ _ iha ihk =>
      rw [columns_pair rfl]
      exact List.forall_mem_append.2 ⟨iha, ihk⟩
  | indexParentheses _ _ iha ihk =>
      rw [columns_pair rfl, columns_single rfl]
      exact List.forall_mem_append.2 ⟨iha, ihk⟩
  | call _ _ ih =>
      intro n hn
      rw [Ast.columns_node (by decide)] at hn
      obtain ⟨a, ha, hn⟩ := Ast.mem_columnsOf_iff.1 hn
      cases ha with
      | head => cases hn
      | tail _ ha => exact ih a ha n hn
  | column hname =>
      intro n hn
      rwa [List.mem_singleton.1 hn]
  | text | number | trueLiteral | falseLiteral | euler =>
      intro n hn
      cases hn

/-- So do those that are read by what it compiles to. -/
theorem Shaped.readsOnly {a : Ast} (h : Shaped v a) :
    ReadsOnly l (fun n => IsColumnName n.toList) a := by
  intro e he n hn
  rw [h.declares.reads_eq he] at hn
  exact h.isColumnName n hn

/-! ## What terms read -/

/-- A term of a sum that reads one column, whatever it compiles to. -/
structure ReadsColumn (l : Library) (x : List Char) (column : String) : Prop where
  spelled : ∃ ms, Spelled .product x ms
  reads_eq : ∀ e, CompilesAt l .product x e → e.reads = [column]

theorem readsColumn_reference {name : String} (h : Balanced name.toList) :
    ReadsColumn l (reference name) (columnOf name) := by
  obtain ⟨ms, hms⟩ := Spelled.reference h
  refine ⟨⟨ms, hms.mono (by decide)⟩, fun e he => ?_⟩
  rw [hms.compilesAt_iff_of_le (by decide)] at he
  obtain ⟨-, rfl⟩ := (compilesAt_reference h).1 he
  rfl

theorem isCallable_string : IsCallable "string".toList :=
  ⟨by decide, by decide, by decide⟩

/-- A call of `string` on a reference. -/
def stringOf (name : String) : List Char :=
  "string(".toList ++ reference name ++ [')']

theorem Spelled.stringOf {name : String} (h : Balanced name.toList) :
    ∃ ms, Spelled .primary (stringOf name) ms := by
  obtain ⟨ms, hms⟩ := Spelled.reference h
  have hident : ∀ c ∈ "string".toList, isIdentChar c = true := by decide
  exact ⟨_, Spelled.enclosed hident (by decide) (by decide) hms.nested⟩

theorem compilesAt_stringOf {name : String} (h : Balanced name.toList) :
    CompilesAt l .primary (stringOf name) e ↔ ∃ r f, l.resolve "string" = .ok r ∧
      CompilesAt l .primary (reference name) f ∧ e = .call r [f] := by
  obtain ⟨ms, hms⟩ := Spelled.reference h
  have hexpression := hms.mono (v := .expression) (by decide)
  simp only [← hms.compilesAt_iff_of_le (v := .expression) (by decide)]
  exact hexpression.compilesAt_call isCallable_string

theorem readsColumn_stringOf {name : String} (h : Balanced name.toList) :
    ReadsColumn l (stringOf name) (columnOf name) := by
  obtain ⟨ms, hms⟩ := Spelled.stringOf h
  refine ⟨⟨ms, hms.mono (by decide)⟩, fun e he => ?_⟩
  rw [hms.compilesAt_iff_of_le (by decide)] at he
  obtain ⟨r, f, -, hf, rfl⟩ := (compilesAt_stringOf h).1 he
  obtain ⟨-, rfl⟩ := (compilesAt_reference h).1 hf
  rfl

theorem Spelled.weighted {c : Contribution} (h : Balanced c.name.toList) :
    ∃ ms, Spelled .product c.weighted ms := by
  obtain ⟨ms, hms⟩ := Spelled.reference h
  obtain ⟨ns, hns⟩ := exists_spelled_numberText c.factor
  exact ⟨_, (hns.mono (by decide)).tightProduct (hms.mono (by decide))⟩

theorem compilesAt_weighted {c : Contribution} (h : Balanced c.name.toList) :
    CompilesAt l .product c.weighted e ↔ ∃ f g, CompilesAt l .unary (numberText c.factor) f ∧
      CompilesAt l .primary (reference c.name) g ∧ e = .binary .product f g := by
  obtain ⟨ms, hms⟩ := Spelled.reference h
  obtain ⟨ns, hns⟩ := exists_spelled_numberText c.factor
  have hhead : (reference c.name).head? ≠ some '*' := by
    rw [show (reference c.name).head? = some '$' from rfl]
    decide
  rw [Contribution.weighted, Spelled.compilesAt_tightProduct (hns.mono (by decide))
    (hms.mono (by decide)) hhead]
  simp only [hns.compilesAt_iff_of_le (v := .product) (by decide),
    hms.compilesAt_iff_of_le (v := .unary) (by decide)]

theorem readsColumn_weighted {c : Contribution} (h : Balanced c.name.toList) :
    ReadsColumn l c.weighted (columnOf c.name) := by
  refine ⟨Spelled.weighted h, fun e he => ?_⟩
  obtain ⟨f, g, hf, hg, rfl⟩ := (compilesAt_weighted h).1 he
  obtain ⟨-, rfl⟩ := (compilesAt_reference h).1 hg
  rw [Expr.reads_binary, reads_of_compilesAt_numberText hf]
  rfl

/-! ## What sums read -/

section Sums

variable {cs : List Contribution} {term : Contribution → List Char} {column : Contribution → String}

theorem flatMap_reads {es : List Expr} (h : ∀ c ∈ cs, ReadsColumn l (term c) (column c))
    (hes : List.Forall₂ (CompilesAt l .product) (cs.map term) es) :
    es.flatMap Expr.reads = cs.map column := by
  induction cs generalizing es with
  | nil =>
      cases hes
      rfl
  | cons c cs ih =>
      cases hes with
      | cons he hes =>
          rw [List.flatMap_cons, (h c (List.mem_cons_self ..)).reads_eq _ he,
            ih (fun d hd => h d (List.mem_cons_of_mem _ hd)) hes, List.map_cons,
            List.singleton_append]

theorem spelled_map (h : ∀ c ∈ cs, ∃ ms, Spelled .product (term c) ms) :
    ∀ y ∈ cs.map term, ∃ ms, Spelled .product y ms := by
  intro y hy
  obtain ⟨c, hc, rfl⟩ := List.mem_map.1 hy
  exact h c hc

theorem reads_of_compilesAt_summed (h : ∀ c ∈ cs, ReadsColumn l (term c) (column c))
    (he : CompilesAt l .expression (summed (cs.map term)) e) : e.reads = cs.map column := by
  obtain ⟨f, fs, hfs, rfl⟩ :=
    (compilesAt_summed (spelled_map fun c hc => (h c hc).spelled)).1 he
  rw [Expr.reads_foldl_sum, flatMap_reads h hfs]

end Sums

/-! ## Means -/

/-- The formula of a mean, from its terms and its total weight. -/
theorem recipe_mean (cs : List Contribution) : recipe .mean cs =
    some ('(' :: summed (cs.map (·.weighted)) ++ [')'] ++ ' ' :: "/".toList ++
      ' ' :: numberText (totalWeight cs)) := by
  simp [recipe]

theorem compilesAt_mean {cs : List Contribution} (h : ∀ c ∈ cs, Balanced c.name.toList) :
    CompilesAt l .expression ('(' :: summed (cs.map (·.weighted)) ++ [')'] ++ ' ' :: "/".toList ++
        ' ' :: numberText (totalWeight cs)) e ↔
      ∃ f g, CompilesAt l .expression (summed (cs.map (·.weighted))) f ∧
        CompilesAt l .unary (numberText (totalWeight cs)) g ∧
          e = .binary .quotient (.group f) g := by
  have hnested := Nested.summed (spelled_map fun c hc => Spelled.weighted (h c hc))
  have hgroup := Spelled.parentheses hnested
  obtain ⟨ns, hns⟩ := exists_spelled_numberText (totalWeight cs)
  have hquotient : Tag.quotient.levels? = some (.product, .product, .unary) := rfl
  have hgroup' := hgroup.mono (v := .product) (by decide)
  rw [(hgroup'.binary hns hquotient rfl).compilesAt_iff_of_le (by decide),
    hgroup'.compilesAt_binary hns hquotient rfl]
  simp only [hgroup.compilesAt_iff_of_le (v := .product) (by decide),
    compilesAt_parentheses hnested]
  constructor
  · rintro ⟨-, g, ⟨f, hf, rfl⟩, hg, rfl⟩
    exact ⟨f, g, hf, hg, rfl⟩
  · rintro ⟨f, g, hf, hg, rfl⟩
    exact ⟨_, g, ⟨f, hf, rfl⟩, hg, rfl⟩

/-! ## What formulas made from columns read -/

/-- From names with balanced parentheses the columns of the trimmed names are read. -/
theorem reads_of_recipe {op : Operation} {cs : List Contribution}
    (h : ∀ c ∈ cs, Balanced c.name.toList) (hx : recipe op cs = some x)
    (he : CompilesAt l .expression x e) : e.reads = cs.map fun c => columnOf c.name := by
  cases op with
  | custom => cases hx
  | sum =>
      obtain rfl := Option.some.inj hx
      exact reads_of_compilesAt_summed (fun c hc => readsColumn_reference (h c hc)) he
  | concat =>
      obtain rfl := Option.some.inj hx
      exact reads_of_compilesAt_summed (fun c hc => readsColumn_stringOf (h c hc)) he
  | mean =>
      rw [recipe_mean] at hx
      obtain rfl := Option.some.inj hx
      obtain ⟨f, g, hf, hg, rfl⟩ := (compilesAt_mean h).1 he
      rw [Expr.reads_binary, Expr.reads_group, reads_of_compilesAt_numberText hg, List.append_nil]
      exact reads_of_compilesAt_summed (fun c hc => readsColumn_weighted (h c hc)) hf

theorem generate_eq_valid_iff_recipe {op : Operation} {cs : List Contribution} {t : String} :
    generate l op cs = .valid t e ↔ ∃ x, recipe op (cs.filter (·.used)) = some x ∧
      t = String.ofList x ∧ CompilesAt l .expression x e := by
  rw [generate_eq_valid_iff, sourceOf, Option.map_eq_some_iff]
  constructor
  · rintro ⟨⟨x, hx, rfl⟩, he⟩
    exact ⟨x, hx, rfl, compileText_ofList_iff.1 he⟩
  · rintro ⟨x, hx, rfl, he⟩
    exact ⟨⟨x, hx, rfl⟩, compileText_ofList_iff.2 he⟩

/-- A formula made from columns reads them, in their order, just if all their names can stand in a
reference; and if their parentheses are balanced, it reads the columns of the trimmed names. -/
theorem reads_of_generate {op : Operation} {cs : List Contribution} {t : String}
    (h : generate l op cs = .valid t e) :
    (e.reads = (cs.filter (·.used)).map (·.name) ↔
        ∀ c ∈ cs.filter (·.used), IsColumnName c.name.toList) ∧
      ((∀ c ∈ cs.filter (·.used), Balanced c.name.toList) →
        e.reads = (cs.filter (·.used)).map fun c => columnOf c.name) := by
  obtain ⟨x, hx, rfl, he⟩ := generate_eq_valid_iff_recipe.1 h
  refine ⟨⟨fun hreads c hc => ?_, fun hnames => ?_⟩, fun hbalanced => reads_of_recipe hbalanced hx he⟩
  · obtain ⟨a, ha, hcompile⟩ := compileText_eq_ok_iff.1 (compileText_ofList_iff.2 he)
    refine (shaped_of_parse ha).readsOnly e hcompile c.name ?_
    rw [hreads]
    exact List.mem_map_of_mem hc
  · rw [reads_of_recipe (fun c hc => (hnames c hc).balanced) hx he]
    exact List.map_congr_left fun c hc => columnOf_eq_self (hnames c hc).trimmed

/-- The two parts for a sum of columns with odd names; one more column takes no part. -/
theorem reads_of_generate_sum :
    let cs : List Contribution :=
      [⟨1, "a or b", 1.0, true⟩, ⟨2, " c", 1.0, false⟩, ⟨3, "(d)", 1.0, true⟩]
    let e : Expr := .binary .sum (.column "a or b") (.column "(d)")
    generate .empty .sum cs = .valid "$(a or b) + $((d))" e ∧
      (e.reads = ["a or b", "(d)"] ↔ ∀ c ∈ cs.filter (·.used), IsColumnName c.name.toList) ∧
      ((∀ c ∈ cs.filter (·.used), Balanced c.name.toList) →
        e.reads = ["a or b", "(d)"].map columnOf) := by
  intro cs e
  have hname : ∀ name ∈ ["a or b", "(d)"], Balanced name.toList := by decide
  have hne : ∀ name ∈ ["a or b", "(d)"], Text.trim name.toList ≠ [] := by decide
  have hterms : ∀ y ∈ ["a or b", "(d)"].map reference, ∃ ms, Spelled .product y ms := by
    intro y hy
    obtain ⟨name, hmem, rfl⟩ := List.mem_map.1 hy
    exact (readsColumn_reference (l := .empty) (hname name hmem)).spelled
  have hcolumn : ∀ name ∈ ["a or b", "(d)"],
      CompilesAt .empty .product (reference name) (.column (columnOf name)) := by
    intro name hmem
    obtain ⟨ms, hms⟩ := Spelled.reference (hname name hmem)
    rw [hms.compilesAt_iff_of_le (by decide), compilesAt_reference (hname name hmem)]
    exact ⟨hne name hmem, rfl⟩
  have hvalid : generate .empty .sum cs = .valid "$(a or b) + $((d))" e := by
    refine generate_eq_valid_iff_recipe.2 ⟨_, rfl, by decide, (compilesAt_summed hterms).2 ?_⟩
    exact ⟨.column "a or b", [.column "(d)"],
      .cons (hcolumn _ (by decide)) (.cons (hcolumn _ (by decide)) .nil), rfl⟩
  exact ⟨hvalid, reads_of_generate hvalid⟩

/-- Not all names are read as they are: blanks around a name are dropped. -/
theorem not_forall_reads_of_generate :
    ¬ ∀ (l : Library) (op : Operation) (cs : List Contribution) (t : String) (e : Expr),
      op ≠ .custom → generate l op cs = .valid t e → e.reads = (cs.filter (·.used)).map (·.name) := by
  intro h
  have hbalanced : Balanced " a ".toList := by decide
  obtain ⟨ms, hms⟩ := Spelled.reference hbalanced
  have hcolumn : CompilesAt .empty .expression (reference " a ") (.column "a") := by
    rw [hms.compilesAt_iff_of_le (by decide), compilesAt_reference hbalanced]
    exact ⟨by decide, rfl⟩
  have hvalid : generate .empty .sum [⟨1, " a ", 1.0, true⟩] = .valid "$( a )" (.column "a") :=
    generate_eq_valid_iff_recipe.2 ⟨_, rfl, by decide, hcolumn⟩
  have hreads := h _ _ _ _ _ (by decide) hvalid
  revert hreads
  decide

end ColumnTree.Formula
