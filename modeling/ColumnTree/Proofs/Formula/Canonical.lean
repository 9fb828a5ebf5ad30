/-
# Canonical texts

A formula can be got back from its canonical text, but for the literal that stands for `e`
(`Transcribes`).  So two formulas with the same canonical text have, with that literal in place of
`e`, the same text; they are then the same tree, since trees of the grammar are read back from their
texts.

In a canonical text `|` and `&` stand for the keywords, quotes are those of texts, and `r[` begins a
column: no number, no name and no other operator has one of `|`, `&`, `"` and `[`, and what stands
before an index does not end in `r`.
-/
import ColumnTree.Proofs.Formula.Euler
import ColumnTree.Proofs.Formula.RoundTrip
import ColumnTree.Proofs.Json.Quoted

namespace ColumnTree.Formula

/-! ## From canonical texts to formulas -/

/-- `Transcribes x y`: the canonical text `x` is that of the formula `y`. -/
inductive Transcribes : List Char → List Char → Prop where
  | nil : Transcribes [] []
  | either {x y : List Char} : Transcribes x y → Transcribes ('|' :: '|' :: x) ('o' :: 'r' :: y)
  | both {x y : List Char} :
      Transcribes x y → Transcribes ('&' :: '&' :: x) ('a' :: 'n' :: 'd' :: y)
  | text {x y : List Char} (s : List Char) : Transcribes x y →
      Transcribes ('"' :: (s.flatMap Json.escape ++ '"' :: x)) (quoteText s ++ y)
  | column {x y : List Char} (s : List Char) : Transcribes x y →
      Transcribes ('r' :: '[' :: '"' :: (s.flatMap Json.escape ++ '"' :: ']' :: x))
        ('$' :: '(' :: (s ++ ')' :: y))
  /-- Any other character stands for itself. -/
  | char {c : Char} {x y : List Char} : c ∉ ['|', '&', '"'] → (c = 'r' → x.head? ≠ some '[') →
      Transcribes x y → Transcribes (c :: x) (c :: y)

namespace Transcribes

variable {x y z w : List Char}

/-- A canonical text is that of one formula only. -/
theorem unique (h : Transcribes x y) (h' : Transcribes x z) : y = z := by
  induction h generalizing z with
  | nil =>
      cases h'
      rfl
  | either _ ih =>
      cases h' with
      | either h' => rw [ih h']
      | char hc _ _ => exact absurd (by decide) hc
  | both _ ih =>
      cases h' with
      | both h' => rw [ih h']
      | char hc _ _ => exact absurd (by decide) hc
  | text s _ ih =>
      generalize hx : '"' :: (s.flatMap Json.escape ++ '"' :: _) = x' at h'
      cases h' with
      | text t h' =>
          obtain ⟨rfl, rfl⟩ := Json.escaped_inj (List.cons.inj hx).2
          rw [ih h']
      | char hc _ _ =>
          obtain ⟨rfl, -⟩ := List.cons.inj hx
          exact absurd (by decide) hc
      | _ => cases hx
  | column s _ ih =>
      generalize hx : 'r' :: '[' :: '"' :: (s.flatMap Json.escape ++ '"' :: ']' :: _) = x' at h'
      cases h' with
      | column t h' =>
          simp only [List.cons.injEq, true_and] at hx
          obtain ⟨rfl, hrest⟩ := Json.escaped_inj hx
          obtain ⟨-, rfl⟩ := List.cons.inj hrest
          rw [ih h']
      | char _ hr _ =>
          obtain ⟨rfl, rfl⟩ := List.cons.inj hx
          exact absurd rfl (hr rfl)
      | _ => cases hx
  | char hc hr _ ih =>
      cases h' with
      | char _ _ h' => rw [ih h']
      | column s h' => exact absurd rfl (hr rfl)
      | _ => exact absurd (by decide) hc

/-- A word without special characters stands for itself. -/
theorem word (h : Transcribes x y) (hw : ∀ c ∈ w, c ∉ ['|', '&', '"', '['])
    (hlast : w.getLast? = some 'r' → x.head? ≠ some '[') : Transcribes (w ++ x) (w ++ y) := by
  induction w with
  | nil => exact h
  | cons c w ih =>
      have hc := hw c (List.mem_cons_self ..)
      simp only [List.mem_cons, List.not_mem_nil, or_false, not_or] at hc
      refine .char (by simp [hc]) ?_ (ih (fun d hd => hw d (List.mem_cons_of_mem _ hd)) ?_)
      · rintro rfl
        cases w with
        | nil => exact hlast rfl
        | cons d w =>
            intro hd
            obtain rfl := Option.some.inj hd
            exact hw '[' (by simp) (by decide)
      · intro hr
        cases w with
        | nil => cases hr
        | cons d w => exact hlast (by rw [List.getLast?_cons_cons, hr])

/-- A character other than these stands for itself wherever it is. -/
theorem plain {c : Char} (h : Transcribes x y) (hc : c ∉ ['|', '&', '"', 'r']) :
    Transcribes (c :: x) (c :: y) := by
  simp only [List.mem_cons, List.not_mem_nil, or_false, not_or] at hc
  exact .char (by simp [hc]) (fun hr => absurd hr hc.2.2.2) h

end Transcribes

/-! ## Canonical texts of compiled trees -/

section Equations

variable (e f : Expr)

theorem Expr.write_operator (op : Operator) :
    (binary op e f).write = e.write ++ ' ' :: op.sign.toList ++ ' ' :: f.write :=
  rfl

theorem Expr.write_either : (either e f).write = e.write ++ " || ".toList ++ f.write :=
  rfl

theorem Expr.write_both : (both e f).write = e.write ++ " && ".toList ++ f.write :=
  rfl

theorem Expr.write_index : (index e f).write = e.write ++ '[' :: f.write ++ [']'] :=
  rfl

theorem Expr.write_routine (r : Routine) (es : List Expr) :
    (call r es).write = r.name.toList ++ '(' :: Text.join [',', ' '] (writeAll es) ++ [')'] :=
  rfl

theorem Expr.writeAll_cons (es : List Expr) : writeAll (e :: es) = e.write :: writeAll es :=
  rfl

end Equations

/-- The canonical text of `e` is that of the tree `a`, whatever stands after it. -/
def Expr.Transcribes (e : Expr) (a : Ast) : Prop :=
  ∀ x y, Formula.Transcribes x y → Formula.Transcribes (e.write ++ x) (a.write ++ y)

theorem Tag.operator_cases {tag : Tag} {p : Level × Level × Level} (h : tag.levels? = some p) :
    (∃ op, tag.eager? = some op ∧ tag.operator? = some op.sign) ∨
      tag = .disjunction ∨ tag = .conjunction := by
  cases tag <;> first | exact .inl ⟨_, rfl, rfl⟩ | exact .inr (by decide) | cases h

theorem Operator.mem_sign (op : Operator) : ∀ c ∈ op.sign.toList, c ∉ ['|', '&', '"', '[', 'r'] := by
  cases op <;> decide

namespace Expr.Transcribes

variable {e f : Expr} {a b : Ast}

theorem operator {op : Operator} {tag : Tag} {m left right : Level} (he : e.Transcribes a)
    (hf : f.Transcribes b) (htag : tag.levels? = some (m, left, right))
    (hop : tag.operator? = some op.sign) :
    (Expr.binary op e f).Transcribes (.node tag [a, b]) := by
  intro x y h
  rw [write_binary htag hop]
  simp only [write_operator, List.append_assoc, List.cons_append]
  have hsign := op.mem_sign
  simp only [List.mem_cons, List.not_mem_nil, or_false, not_or] at hsign
  refine he _ _ (.plain (.word (.plain (hf _ _ h) (by decide)) (fun c hc => ?_) fun _ => nofun) (by decide))
  simp [hsign c hc]

theorem either (he : e.Transcribes a) (hf : f.Transcribes b) :
    (Expr.either e f).Transcribes (.node .disjunction [a, b]) := by
  intro x y h
  rw [write_binary rfl rfl]
  simp only [write_either, List.append_assoc, List.cons_append]
  exact he _ _ (.plain (.either (.plain (hf _ _ h) (by decide))) (by decide))

theorem both (he : e.Transcribes a) (hf : f.Transcribes b) :
    (Expr.both e f).Transcribes (.node .conjunction [a, b]) := by
  intro x y h
  rw [write_binary rfl rfl]
  simp only [write_both, List.append_assoc, List.cons_append]
  exact he _ _ (.plain (.both (.plain (hf _ _ h) (by decide))) (by decide))

theorem negate (he : e.Transcribes a) : (Expr.negate e).Transcribes (.node .negation [a]) :=
  fun _ _ h => .plain (he _ _ h) (by decide)

theorem group (he : e.Transcribes a) : (Expr.group e).Transcribes (.node .parentheses [a]) := by
  intro x y h
  show Formula.Transcribes ('(' :: e.write ++ [')'] ++ x) ('(' :: a.write ++ [')'] ++ y)
  simp only [List.cons_append, List.append_assoc]
  exact .plain (he _ _ (.plain h (by decide))) (by decide)

theorem index {tag : Tag} (htag : tag = .index ∨ tag = .indexParentheses) (he : e.Transcribes a)
    (hf : f.Transcribes b) : (Expr.index e f).Transcribes (.node tag [a, b]) := by
  intro x y h
  have hwrite : (Ast.node tag [a, b]).write = a.write ++ '[' :: b.write ++ [']'] := by
    rcases htag with rfl | rfl <;> rfl
  rw [hwrite]
  simp only [write_index, List.cons_append, List.append_assoc]
  exact he _ _ (.plain (hf _ _ (.plain h (by decide))) (by decide))

theorem column (name : String) : (Expr.column name).Transcribes (.leaf .column name) := by
  intro x y h
  show Formula.Transcribes ("r[".toList ++ Json.quoted name.toList ++ [']'] ++ x)
    ('$' :: '(' :: name.toList ++ [')'] ++ y)
  simpa [Json.quoted] using Formula.Transcribes.column name.toList h

theorem text (s : String) : (Expr.text s).Transcribes (.leaf .text s) := by
  intro x y h
  show Formula.Transcribes (Json.quoted s.toList ++ x) (quoteText s.toList ++ y)
  simpa [Json.quoted] using Formula.Transcribes.text s.toList h

theorem number {s : String} (hs : IsNumber s.toList) (v : Float) :
    (Expr.number s.toList v).Transcribes (.leaf .number s) := by
  intro x y h
  have hchars : ∀ c ∈ s.toList, c ∉ ['|', '&', '"', '[', 'r'] := fun c hc =>
    (hs.isNumberChar hc).notMem (by decide)
  rw [write_number]
  refine h.word (fun c hc => ?_) fun hlast => ?_
  · have := hchars c hc
    simp only [List.mem_cons, List.not_mem_nil, or_false, not_or] at this
    simp [this]
  · exact absurd (by decide) (hchars 'r' (List.mem_of_getLast? hlast))

theorem constant {w : List Char} (he : e.write = w) (ha : a.write = w)
    (hw : ∀ c ∈ w, c ∉ ['|', '&', '"', '[']) (hlast : w.getLast? ≠ some 'r') : e.Transcribes a := by
  intro x y h
  rw [he, ha]
  exact h.word hw fun hr => absurd hr hlast

theorem join {l : Library} {args : List Ast} {es : List Expr} {x y : List Char}
    (hargs : ∀ a ∈ args, ∀ e, compile l a = .ok e → e.Transcribes a.spellOut)
    (hes : compileAll l args = .ok es) (h : Formula.Transcribes x y) :
    Formula.Transcribes (Text.join [',', ' '] (Expr.writeAll es) ++ x)
      (Text.join [',', ' '] ((args.map Ast.spellOut).map Ast.write) ++ y) := by
  induction args generalizing es with
  | nil =>
      obtain rfl := Except.ok.inj hes
      exact h
  | cons a args ih =>
      obtain ⟨e, fs, he, hfs, rfl⟩ := compileAll_cons.1 hes
      have ha := hargs a (List.mem_cons_self ..) e he
      have hrest := ih (fun b hb => hargs b (List.mem_cons_of_mem _ hb)) hfs
      cases args with
      | nil =>
          obtain rfl := Except.ok.inj hfs
          exact ha _ _ h
      | cons b args =>
          obtain ⟨f, fs, -, -, rfl⟩ := compileAll_cons.1 hfs
          simp only [Expr.writeAll_cons, List.map_cons, Text.join_cons_cons, List.append_assoc,
            List.cons_append] at hrest ⊢
          exact ha _ _ (.plain (.plain hrest (by decide)) (by decide))

theorem call {l : Library} {name : String} {args : List Ast} {r : Routine} {es : List Expr}
    (hname : IsCallable name.toList) (hr : r.name = name)
    (hargs : ∀ a ∈ args, ∀ e, compile l a = .ok e → e.Transcribes a.spellOut)
    (hes : compileAll l args = .ok es) :
    (Expr.call r es).Transcribes (.node .call (.token name :: args.map Ast.spellOut)) := by
  intro x y h
  rw [write_call]
  subst hr
  simp only [write_routine, List.append_assoc, List.cons_append]
  refine .word (.plain (join hargs hes (.plain h (by decide))) (by decide)) (fun c hc => ?_)
    fun _ => nofun
  have hident := List.all_eq_true.1 (Bool.and_eq_true_iff.1 hname.identifier).2 c hc
  intro hmem
  simp only [List.mem_cons, List.not_mem_nil, or_false] at hmem
  rcases hmem with rfl | rfl | rfl | rfl <;> cases hident

end Expr.Transcribes

/-- Every compiled formula transcribes its tree. -/
theorem Shaped.transcribes {l : Library} {m : Level} {a : Ast} {e : Expr} (h : Shaped m a)
    (he : compile l a = .ok e) : e.Transcribes a.spellOut := by
  induction h generalizing e with
  | loosen _ _ ih => exact ih he
  | binary htag _ _ iha ihb =>
      obtain ⟨f, g, hf, hg, rfl⟩ := (compile_pair (Tag.shape_of_levels? htag)).1 he
      rw [Ast.spellOut_node (Tag.ne_euler_of_levels? htag)]
      obtain ⟨op, heager, hop⟩ | rfl | rfl := Tag.operator_cases htag
      · rw [show pair _ f g = .binary op f g by simp [pair, heager]]
        exact (iha hf).operator (ihb hg) htag hop
      · exact (iha hf).either (ihb hg)
      · exact (iha hf).both (ihb hg)
  | negation _ ih =>
      obtain ⟨f, hf, rfl⟩ := (compile_single rfl).1 he
      rw [Ast.spellOut_node (by decide)]
      exact (ih hf).negate
  | index _ _ _ iha ihk =>
      obtain ⟨f, g, hf, hg, rfl⟩ := (compile_pair rfl).1 he
      rw [Ast.spellOut_node (by decide)]
      exact .index (.inl rfl) (iha hf) (ihk hg)
  | indexParentheses _ _ iha ihk =>
      obtain ⟨f, g, hf, hg, rfl⟩ := (compile_pair rfl).1 he
      obtain ⟨f', hf', rfl⟩ := (compile_single rfl).1 hf
      rw [Ast.spellOut_node (by decide), List.map_cons, Ast.spellOut_node (by decide)]
      exact .index (.inr rfl) (iha hf').group (ihk hg)
  | parentheses _ ih =>
      obtain ⟨f, hf, rfl⟩ := (compile_single rfl).1 he
      rw [Ast.spellOut_node (by decide)]
      exact (ih hf).group
  | call hname _ ih =>
      obtain ⟨r, es, hr, hes, rfl⟩ := (compile_call rfl).1 he
      rw [Ast.spellOut_node (by decide), List.map_cons, Ast.spellOut]
      exact .call hname (Library.name_of_resolve hr) (fun a ha e => ih a ha) hes
  | column =>
      rw [compile_leaf rfl] at he
      obtain rfl := Except.ok.inj he
      exact .column _
  | text =>
      rw [compile_leaf rfl] at he
      obtain rfl := Except.ok.inj he
      exact .text _
  | @number s hs =>
      obtain ⟨v, hv⟩ := Option.isSome_iff_exists.1 hs.reads
      obtain rfl := Except.ok.inj ((hs.compile hv).symm.trans he)
      exact .number hs v
  | trueLiteral =>
      obtain rfl := Except.ok.inj he
      exact .constant (w := "true".toList) rfl rfl (by decide) (by decide)
  | falseLiteral =>
      obtain rfl := Except.ok.inj he
      exact .constant (w := "false".toList) rfl rfl (by decide) (by decide)
  | euler =>
      obtain rfl := Except.ok.inj he
      exact .constant (w := eulerText.toList) numberText_eulerNumber (write_number _) (by decide)
        (by decide)

/-! ## The canonical text determines the formula -/

theorem alike_of_write_eq {l : Library} {a b : Ast} {e f : Expr} (ha : Shaped .expression a)
    (hb : Shaped .expression b) (he : compile l a = .ok e) (hf : compile l b = .ok f)
    (h : e.write = f.write) : e.Alike f := by
  have hwrite : a.spellOut.write = b.spellOut.write := by
    have hx := ha.transcribes he [] [] .nil
    have hy := hb.transcribes hf [] [] .nil
    rw [List.append_nil, List.append_nil] at hx hy
    rw [h] at hx
    exact hx.unique hy
  have htree : a.spellOut = b.spellOut := eq_of_write_eq ha.spellOut hb.spellOut hwrite
  obtain ⟨e', he', hee⟩ := ha.exists_compile_spellOut he
  obtain ⟨f', hf', hff⟩ := hb.exists_compile_spellOut hf
  rw [htree, hf'] at he'
  obtain rfl := Except.ok.inj he'
  exact hee.symm.trans hff

/-- Formulas with the same canonical text read the same columns and have the same values. -/
theorem reads_eq_and_eval_eq_of_render_eq {l : Library} {t₁ t₂ : String} {e₁ e₂ : Expr}
    (h₁ : compileText l t₁ = .ok e₁) (h₂ : compileText l t₂ = .ok e₂)
    (h : e₁.render = e₂.render) :
    e₁.reads = e₂.reads ∧ ∀ row, e₁.eval row = e₂.eval row := by
  obtain ⟨a, ha, he₁⟩ := compileText_eq_ok_iff.1 h₁
  obtain ⟨b, hb, he₂⟩ := compileText_eq_ok_iff.1 h₂
  have halike := alike_of_write_eq (shaped_of_parse ha) (shaped_of_parse hb) he₁ he₂
    (String.ofList_injective h)
  exact ⟨halike.reads_eq, halike.eval_eq⟩

/-- The literal for `e` has the canonical text of `e`. -/
theorem reads_eq_and_eval_eq_of_render_eq_euler :
    let e₁ : Expr := .binary .product (.column "x") .euler
    let e₂ : Expr := .binary .product (.column "x") (.number eulerText.toList eulerNumber)
    compileText .empty "$(x) * e" = .ok e₁ ∧
      compileText .empty "$(x) * 2.718281828459045" = .ok e₂ ∧ e₁.render = e₂.render ∧
      e₁.reads = e₂.reads ∧ ∀ row, e₁.eval row = e₂.eval row := by
  intro e₁ e₂
  have hcolumn : Shaped .product (.leaf .column "x") :=
    Shaped.mono (l := .primary) (.column (by decide)) (by decide)
  have hread : ∀ {b : Ast} {t : String}, Shaped .unary b →
      (Ast.node .product [.leaf .column "x", b]).render = t →
        parse t = .ok (.node .product [.leaf .column "x", b]) := by
    rintro b t hb rfl
    exact parse_render (Shaped.mono (l := .product) (.binary rfl hcolumn hb) (by decide))
  have h₁ : compileText .empty "$(x) * e" = .ok e₁ := by
    refine compileText_eq_ok_iff.2 ⟨_, hread (Shaped.euler.mono (by decide)) (by decide), ?_⟩
    exact (compile_pair rfl).2 ⟨_, _, rfl, rfl, rfl⟩
  have h₂ : compileText .empty "$(x) * 2.718281828459045" = .ok e₂ := by
    have hnumber := isNumber_eulerText
    refine compileText_eq_ok_iff.2
      ⟨_, hread ((Shaped.number hnumber).mono (by decide)) (by decide), ?_⟩
    exact (compile_pair rfl).2
      ⟨_, _, rfl, hnumber.compile read?_eulerText, rfl⟩
  have hrender : e₁.render = e₂.render := by
    simp only [Expr.render, Expr.write, e₁, e₂, numberText_eulerNumber]
  exact ⟨h₁, h₂, hrender, reads_eq_and_eval_eq_of_render_eq h₁ h₂ hrender⟩

end ColumnTree.Formula
