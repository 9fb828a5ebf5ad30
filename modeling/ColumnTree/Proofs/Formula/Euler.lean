/-
# Euler's number written out

The canonical text of `e` is that of a number literal, and so it cannot be told from one.  Nor does
it matter: a tree in which every `e` is replaced by that literal is one of the same level, and is
compiled to an alike formula.
-/
import ColumnTree.Proofs.Formula.Compiled
import ColumnTree.Proofs.Formula.Number

namespace ColumnTree.Formula

/-- The number literal for Euler's number. -/
def eulerText : String := "2.718281828459045"

theorem numberText_eulerNumber : numberText eulerNumber = eulerText.toList := rfl

theorem read?_eulerText : Decimal.read? eulerText.toList = some eulerNumber := rfl

theorem isNumber_eulerText : IsNumber eulerText.toList :=
  isNumber_of_notMem (by rw [read?_eulerText]; rfl) (by decide) (by decide)

namespace Ast

mutual

/-- A tree with every `e` written out. -/
def spellOut : Ast → Ast
  | token t => token t
  | node tag children =>
    if tag = .euler then leaf .number eulerText else node tag (spellOutAll children)

/-- Several trees with every `e` written out. -/
def spellOutAll : List Ast → List Ast
  | [] => []
  | a :: rest => spellOut a :: spellOutAll rest

end

theorem spellOutAll_eq_map (as : List Ast) : spellOutAll as = as.map spellOut := by
  induction as with
  | nil => rfl
  | cons a as ih => rw [spellOutAll, ih, List.map_cons]

theorem spellOut_node {tag : Tag} (h : tag ≠ .euler) (children : List Ast) :
    spellOut (.node tag children) = .node tag (children.map spellOut) := by
  rw [spellOut, if_neg h, spellOutAll_eq_map]

theorem spellOut_leaf {tag : Tag} (h : tag ≠ .euler) (s : String) :
    spellOut (.leaf tag s) = .leaf tag s := by
  rw [leaf, spellOut_node h, List.map_singleton, spellOut]

/-- No other node becomes one of parentheses. -/
theorem exists_of_spellOut_parentheses {a : Ast} {cs : List Ast}
    (h : a.spellOut = .node .parentheses cs) : ∃ bs, a = .node .parentheses bs := by
  cases a with
  | token t => cases h
  | node tag bs =>
      by_cases htag : tag = .euler
      · subst htag
        cases h
      · rw [spellOut_node htag] at h
        obtain ⟨rfl, -⟩ := Ast.node.inj h
        exact ⟨bs, rfl⟩

end Ast

theorem Tag.ne_euler_of_levels? {tag : Tag} {p : Level × Level × Level}
    (h : tag.levels? = some p) : tag ≠ .euler := by
  rintro rfl
  cases h

/-- The level of a tree stays the same. -/
theorem Shaped.spellOut {l : Level} {a : Ast} (h : Shaped l a) : Shaped l a.spellOut := by
  induction h with
  | loosen hl _ ih => exact .loosen hl ih
  | binary htag _ _ iha ihb =>
      rw [Ast.spellOut_node (Tag.ne_euler_of_levels? htag)]
      exact .binary htag iha ihb
  | negation _ ih =>
      rw [Ast.spellOut_node (by decide)]
      exact .negation ih
  | index _ hne _ iha ihk =>
      rw [Ast.spellOut_node (by decide)]
      refine .index iha (fun cs hcs => ?_) ihk
      obtain ⟨bs, hbs⟩ := Ast.exists_of_spellOut_parentheses hcs
      exact hne bs hbs
  | indexParentheses _ _ iha ihk =>
      rw [Ast.spellOut_node (by decide)]
      rw [List.map_cons, Ast.spellOut_node (by decide)]
      exact .indexParentheses iha ihk
  | parentheses _ ih =>
      rw [Ast.spellOut_node (by decide)]
      exact .parentheses ih
  | call hname _ ih =>
      rw [Ast.spellOut_node (by decide), List.map_cons, Ast.spellOut]
      refine .call hname fun b hb => ?_
      obtain ⟨a, ha, rfl⟩ := List.mem_map.1 hb
      exact ih a ha
  | column hname =>
      rw [Ast.spellOut_leaf (by decide)]
      exact .column hname
  | text =>
      rw [Ast.spellOut_leaf (by decide)]
      exact .text
  | number hs =>
      rw [Ast.spellOut_leaf (by decide)]
      exact .number hs
  | trueLiteral => exact .trueLiteral
  | falseLiteral => exact .falseLiteral
  | euler => exact .number isNumber_eulerText

/-! ## Compiling -/

theorem Tag.shape_of_levels? {tag : Tag} {p : Level × Level × Level}
    (h : tag.levels? = some p) : tag.shape = .pair := by
  cases tag <;> first | rfl | cases h

section Compiling

variable {l : Library}

/-- The literal of a number stays as it is. -/
theorem compile_number {s : String} {v : Float} (hv : Decimal.read? s.toList = some v)
    (hhead : s.toList.head?.any (fun c => c.isDigit || c == '.') = true) :
    compile l (.leaf .number s) = .ok (.number s.toList v) := by
  have hreads : (Decimal.read? s.toList).isSome = true := by
    rw [hv]
    rfl
  have htrim : Text.trim s.toList = s.toList := Text.trim_eq_self
    (Text.bare_of_forall fun _ hc => (isNumberChar_of_read? hreads hhead hc).isBlank)
  rw [compile_leaf rfl, compileNumber, htrim, hv]

theorem IsNumber.compile {s : String} {v : Float} (hs : IsNumber s.toList)
    (hv : Decimal.read? s.toList = some v) :
    compile l (.leaf .number s) = .ok (.number s.toList v) :=
  compile_number hv hs.head

theorem exists_compileAll_spellOut {args : List Ast} {es : List Expr}
    (hargs : ∀ a ∈ args, ∀ e, compile l a = .ok e →
      ∃ f, compile l a.spellOut = .ok f ∧ f.Alike e)
    (h : compileAll l args = .ok es) :
    ∃ fs, compileAll l (args.map Ast.spellOut) = .ok fs ∧ Expr.AlikeAll fs es := by
  induction args generalizing es with
  | nil =>
      obtain rfl := Except.ok.inj h
      exact ⟨[], rfl, .nil⟩
  | cons a args ih =>
      obtain ⟨e, es, he, hes, rfl⟩ := compileAll_cons.1 h
      obtain ⟨f, hf, hfe⟩ := hargs a (List.mem_cons_self ..) e he
      obtain ⟨fs, hfs, hfses⟩ := ih (fun b hb => hargs b (List.mem_cons_of_mem _ hb)) hes
      exact ⟨f :: fs, compileAll_cons.2 ⟨f, fs, hf, hfs, rfl⟩, .cons hfe hfses⟩

theorem exists_compile_spellOut_pair {tag : Tag} {a b : Ast} {e : Expr} (htag : tag.shape = .pair)
    (ha : ∀ e, compile l a = .ok e → ∃ f, compile l a.spellOut = .ok f ∧ f.Alike e)
    (hb : ∀ e, compile l b = .ok e → ∃ f, compile l b.spellOut = .ok f ∧ f.Alike e)
    (h : compile l (.node tag [a, b]) = .ok e) :
    ∃ f, compile l (Ast.node tag [a, b]).spellOut = .ok f ∧ f.Alike e := by
  have hne : tag ≠ .euler := by
    rintro rfl
    cases htag
  obtain ⟨f, g, hf, hg, rfl⟩ := (compile_pair htag).1 h
  obtain ⟨f', hf', hff⟩ := ha f hf
  obtain ⟨g', hg', hgg⟩ := hb g hg
  rw [Ast.spellOut_node hne]
  exact ⟨_, (compile_pair htag).2 ⟨f', g', hf', hg', rfl⟩, .pair tag hff hgg⟩

theorem exists_compile_spellOut_single {tag : Tag} {a : Ast} {e : Expr}
    (htag : tag.shape = .single)
    (ha : ∀ e, compile l a = .ok e → ∃ f, compile l a.spellOut = .ok f ∧ f.Alike e)
    (h : compile l (.node tag [a]) = .ok e) :
    ∃ f, compile l (Ast.node tag [a]).spellOut = .ok f ∧ f.Alike e := by
  have hne : tag ≠ .euler := by
    rintro rfl
    cases htag
  obtain ⟨f, hf, rfl⟩ := (compile_single htag).1 h
  obtain ⟨f', hf', hff⟩ := ha f hf
  rw [Ast.spellOut_node hne]
  exact ⟨_, (compile_single htag).2 ⟨f', hf', rfl⟩, .single tag hff⟩

/-- The compiled formula is alike. -/
theorem Shaped.exists_compile_spellOut {m : Level} {a : Ast} {e : Expr} (h : Shaped m a)
    (he : compile l a = .ok e) : ∃ f, compile l a.spellOut = .ok f ∧ f.Alike e := by
  induction h generalizing e with
  | loosen _ _ ih => exact ih he
  | binary htag _ _ iha ihb =>
      exact exists_compile_spellOut_pair (Tag.shape_of_levels? htag) (fun _ => iha)
        (fun _ => ihb) he
  | negation _ ih => exact exists_compile_spellOut_single rfl (fun _ => ih) he
  | index _ _ _ iha ihk => exact exists_compile_spellOut_pair rfl (fun _ => iha) (fun _ => ihk) he
  | indexParentheses _ _ iha ihk =>
      exact exists_compile_spellOut_pair rfl
        (fun _ => exists_compile_spellOut_single rfl fun _ => iha) (fun _ => ihk) he
  | parentheses _ ih => exact exists_compile_spellOut_single rfl (fun _ => ih) he
  | call _ _ ih =>
      obtain ⟨r, es, hr, hes, rfl⟩ := (compile_call rfl).1 he
      obtain ⟨fs, hfs, hfses⟩ := exists_compileAll_spellOut (fun a ha e => ih a ha) hes
      rw [Ast.spellOut_node (by decide), List.map_cons, Ast.spellOut]
      exact ⟨_, (compile_call rfl).2 ⟨r, fs, hr, hfs, rfl⟩, .call r hfses⟩
  | column | text | number =>
      rw [Ast.spellOut_leaf (by decide)]
      exact ⟨e, he, .rfl⟩
  | trueLiteral | falseLiteral =>
      rw [Ast.spellOut_node (by decide)]
      exact ⟨e, he, .rfl⟩
  | euler =>
      obtain rfl := Except.ok.inj he
      exact ⟨_, isNumber_eulerText.compile read?_eulerText, rfl, fun _ => rfl⟩

end Compiling

end ColumnTree.Formula
