/-
# Formulas put together from texts

A text that is made by a rule of the grammar compiles to what its parts compile to, put together, and
to nothing else.  There is one equivalence for each way of putting texts together that makes formulas
from columns: so a text can be followed down to its single operands, and what these compile to can
be followed up.

The texts need not be canonical ones.  A name may have blanks around it, and a product may have none
around its sign.
-/
import ColumnTree.Proofs.Formula.Euler
import ColumnTree.Proofs.Formula.NumberText
import ColumnTree.Proofs.Formula.ReadBack
import Mathlib.Data.List.Forall2

namespace ColumnTree.Formula

/-- A text is read at a level, and its tree compiles to a formula. -/
def CompilesAt (l : Library) (v : Level) (x : List Char) (e : Expr) : Prop :=
  ∃ a, parseAt ⟨v, x⟩ = .ok a ∧ compile l a = .ok e

variable {l : Library} {u v left right : Level} {x y : List Char} {ms ns : List Mark} {e : Expr}

theorem compileText_ofList_iff :
    compileText l (String.ofList x) = .ok e ↔ CompilesAt l .expression x e := by
  rw [compileText_eq_ok_iff, parse, String.toList_ofList]
  exact Iff.rfl

/-! ## Steps of the reader -/

/-- The tree of a text that is a leaf. -/
theorem compilesAt_leaf {tag : Tag} {s : String}
    (hsplit : split v x = .ok (.done (.leaf tag s))) :
    CompilesAt l v x e ↔ compile l (.leaf tag s) = .ok e := by
  have hparse := parseAt_of_split (p := ⟨v, x⟩) hsplit
  constructor
  · rintro ⟨a, ha, he⟩
    obtain rfl := Except.ok.inj (ha.symm.trans hparse)
    exact he
  · intro he
    exact ⟨_, hparse, he⟩

theorem compilesAt_single {tag : Tag} {p : Piece} (hsplit : split v x = .ok (.node tag [] [p]))
    (htag : tag.shape = .single) :
    CompilesAt l v x e ↔ ∃ f, CompilesAt l p.level p.text f ∧ e = single tag f := by
  unfold CompilesAt
  rw [parseAt_of_split (p := ⟨v, x⟩) hsplit]
  constructor
  · rintro ⟨a, ha, he⟩
    obtain ⟨b, hb, rfl⟩ := Step.tree_single_eq_ok_iff.1 ha
    obtain ⟨f, hf, rfl⟩ := (compile_single htag).1 he
    exact ⟨f, ⟨b, hb, hf⟩, rfl⟩
  · rintro ⟨f, ⟨b, hb, hf⟩, rfl⟩
    exact ⟨_, Step.tree_single_eq_ok_iff.2 ⟨b, hb, rfl⟩, (compile_single htag).2 ⟨f, hf, rfl⟩⟩

theorem compilesAt_double {tag : Tag} {p q : Piece}
    (hsplit : split v x = .ok (.node tag [] [p, q])) (htag : tag.shape = .pair) :
    CompilesAt l v x e ↔ ∃ f g, CompilesAt l p.level p.text f ∧ CompilesAt l q.level q.text g ∧
      e = pair tag f g := by
  unfold CompilesAt
  rw [parseAt_of_split (p := ⟨v, x⟩) hsplit]
  constructor
  · rintro ⟨a, ha, he⟩
    obtain ⟨b, c, hb, hc, rfl⟩ := Step.tree_double_eq_ok_iff.1 ha
    obtain ⟨f, g, hf, hg, rfl⟩ := (compile_pair htag).1 he
    exact ⟨f, g, ⟨b, hb, hf⟩, ⟨c, hc, hg⟩, rfl⟩
  · rintro ⟨f, g, ⟨b, hb, hf⟩, ⟨c, hc, hg⟩, rfl⟩
    exact ⟨_, Step.tree_double_eq_ok_iff.2 ⟨b, c, hb, hc, rfl⟩,
      (compile_pair htag).2 ⟨f, g, hf, hg, rfl⟩⟩

/-! ## Rules of the grammar -/

/-- There is no formula without any text. -/
theorem not_compilesAt_nil : ¬ CompilesAt l .expression [] e := by
  rintro ⟨a, ha, -⟩
  obtain ⟨s, hs, -⟩ := split_of_parseAt ha
  cases hs

/-- At a looser level a text is read as the same. -/
theorem Spelled.parseAt_of_le (h : Spelled u x ms) (hle : u.rank ≤ v.rank) :
    parseAt ⟨v, x⟩ = parseAt ⟨u, x⟩ :=
  (Level.loosen_induction (P := fun v => Spelled v x ms ∧ parseAt ⟨v, x⟩ = parseAt ⟨u, x⟩)
    (fun htighter ⟨hm, ih⟩ => ⟨hm.loosen htighter,
      (parseAt_of_split (p := ⟨_, x⟩) (hm.split_tighter htighter)).trans ih⟩)
    ⟨h, rfl⟩ hle).2

theorem Spelled.compilesAt_iff_of_le (h : Spelled u x ms) (hle : u.rank ≤ v.rank) :
    CompilesAt l v x e ↔ CompilesAt l u x e := by
  unfold CompilesAt
  rw [h.parseAt_of_le hle]

theorem Spelled.mono (h : Spelled u x ms) (hle : u.rank ≤ v.rank) : Spelled v x ms :=
  Level.loosen_induction (P := fun v => Spelled v x ms) (fun htighter hm => hm.loosen htighter) h hle

/-- An operator with blanks around it. -/
theorem Spelled.compilesAt_binary {tag : Tag} {op : String} (hx : Spelled left x ms)
    (hy : Spelled right y ns) (htag : tag.levels? = some (v, left, right))
    (hop : tag.operator? = some op) :
    CompilesAt l v (x ++ ' ' :: op.toList ++ ' ' :: y) e ↔
      ∃ f g, CompilesAt l left x f ∧ CompilesAt l right y g ∧ e = pair tag f g :=
  compilesAt_double (hx.split_binary hy htag hop) (Tag.shape_of_levels? htag)

theorem Spelled.compilesAt_negation (h : Spelled .unary x ms) :
    CompilesAt l .unary ('-' :: x) e ↔ ∃ f, CompilesAt l .unary x f ∧ e = .negate f :=
  compilesAt_single h.split_negation rfl

theorem compilesAt_parentheses (h : Nested x) :
    CompilesAt l .primary ('(' :: x ++ [')']) e ↔
      ∃ f, CompilesAt l .expression x f ∧ e = .group f :=
  compilesAt_single (split_parentheses h) rfl

/-- A call with one argument. -/
theorem Spelled.compilesAt_call {name : String} (hname : IsCallable name.toList)
    (h : Spelled .expression x ms) :
    CompilesAt l .primary (name.toList ++ '(' :: x ++ [')']) e ↔
      ∃ r f, l.resolve name = .ok r ∧ CompilesAt l .expression x f ∧ e = .call r [f] := by
  have hpieces : argumentPieces x = .ok [⟨.expression, x⟩] := by
    refine argumentPieces_eq_ok_iff.2 ?_
    rw [if_neg (by rw [h.trim_eq]; exact h.ne_nil)]
    refine ⟨ms, h.scans, ?_⟩
    rw [← List.append_nil ms, commaPieces_append h.comma, h.reads.textOf_eq, commaPieces,
      List.append_nil, List.reverse_reverse, List.map_singleton]
  unfold CompilesAt
  rw [parseAt_of_split (p := ⟨.primary, _⟩) (split_call hname h.nested hpieces)]
  simp only [Step.tree_node_eq_ok_iff]
  constructor
  · rintro ⟨-, ⟨cs, hcs, rfl⟩, he⟩
    obtain ⟨a, as, rfl, ha, has⟩ := List.map_eq_cons_iff.1 hcs.symm
    obtain rfl := List.map_eq_nil_iff.1 has
    obtain ⟨r, es, hr, hes, rfl⟩ := (compile_call rfl).1 he
    obtain ⟨f, fs, hf, hfs, rfl⟩ := compileAll_cons.1 hes
    obtain rfl := Except.ok.inj hfs
    exact ⟨r, f, hr, ⟨a, ha.symm, hf⟩, rfl⟩
  · rintro ⟨r, f, hr, ⟨a, ha, hf⟩, rfl⟩
    refine ⟨_, ⟨[a], by rw [List.map_singleton, ha, List.map_singleton], rfl⟩, ?_⟩
    exact (compile_call rfl).2 ⟨r, [f], hr, compileAll_cons.2 ⟨f, [], hf, rfl, rfl⟩, rfl⟩

/-- The column that a reference to a name reads. -/
def columnOf (name : String) : String :=
  String.ofList (Text.trim name.toList)

theorem columnOf_eq_self {name : String} (h : Text.trim name.toList = name.toList) :
    columnOf name = name := by
  rw [columnOf, h, String.ofList_toList]

theorem Spelled.reference {name : String} (h : Balanced name.toList) :
    ∃ ms, Spelled .primary (reference name) ms :=
  ⟨_, Spelled.column h⟩

/-- A reference reads the column of the trimmed name. -/
theorem compilesAt_reference {name : String} (h : Balanced name.toList) :
    CompilesAt l .primary (reference name) e ↔
      Text.trim name.toList ≠ [] ∧ e = .column (columnOf name) := by
  constructor
  · rintro ⟨a, ha, he⟩
    obtain ⟨s, hs, hstep⟩ := split_of_parseAt ha
    obtain ⟨hne, rfl⟩ := (split_reference h).1 hs
    obtain rfl := Except.ok.inj hstep
    exact ⟨hne, (Except.ok.inj he).symm⟩
  · rintro ⟨hne, rfl⟩
    exact (compilesAt_leaf ((split_reference h).2 ⟨hne, rfl⟩)).2 rfl

theorem IsNumber.compilesAt_iff (h : IsNumber x) : CompilesAt l .primary x e ↔
    ∃ a, Decimal.read? x = some a ∧ e = .number x a := by
  obtain ⟨a, ha⟩ := Option.isSome_iff_exists.1 h.reads
  have hnumber : IsNumber (String.ofList x).toList := by rwa [String.toList_ofList]
  have hsplit := split_number hnumber
  have hcompile := hnumber.compile (l := l) (by rwa [String.toList_ofList])
  rw [String.toList_ofList] at hsplit hcompile
  rw [compilesAt_leaf hsplit, hcompile, Except.ok.injEq, ha]
  simp [eq_comm]

/-! ## Products without blanks -/

/-- A sign of a product with nothing around it. -/
theorem Spelled.tightProduct (hx : Spelled .product x ms) (hy : Spelled .unary y ns) :
    Spelled .product (x ++ '*' :: y) (ms ++ .of '*' true :: ns) where
  reads := hx.reads.append (.cons rfl hy.reads)
  nested b stack := by
    rw [List.map_append, List.map_cons]
    exact (hx.nested b stack).append (.cons rfl (hy.nested b stack))
  comma n hn htop := by
    rcases List.mem_append.1 hn with hn | hn
    · exact hx.comma n hn htop
    · rcases List.mem_cons.1 hn with rfl | hn
      · decide
      · exact hy.comma n hn htop
  quiet l' before after hrank hlead := by
    rw [clear_append, clear_cons]
    refine ⟨hx.quiet l' _ _ hrank hlead, ?_, ?_⟩
    · rw [← Bool.not_eq_true]
      intro hcut
      have hmem : '*' ∈ l'.cutChars := (Level.mem_of_isCut hcut).2
      revert hrank hmem
      cases l' <;> decide
    · exact hy.quiet l' _ _ (Nat.lt_trans (by decide) hrank) fun _ => leads_of_mem (by decide)
  first := by
    obtain ⟨c, z, rfl, hc, -⟩ := hx.first
    exact ⟨c, _, rfl, hc, fun hlt => absurd hlt (by decide)⟩
  last := by
    obtain ⟨z, c, rfl, hc⟩ := hy.last
    exact ⟨x ++ '*' :: z, c, by simp, hc⟩

/-- The last mark of a text that is no half of an operator. -/
theorem Spelled.startsWithStar_reverse (h : Spelled u x ms) : startsWithStar ms.reverse = false := by
  obtain ⟨z, c, rfl, -, hc⟩ := h.last
  rcases List.eq_nil_or_concat ms with rfl | ⟨ms, m, rfl⟩
  · rfl
  · have htext := h.reads.textOf_eq
    rw [List.concat_eq_append, textOf_append] at htext
    obtain ⟨-, hm⟩ := List.append_inj' htext rfl
    have hm : m.char = c := (List.cons.inj hm).1
    have hstar : c ≠ '*' := by
      rintro rfl
      exact hc (by decide)
    simp [startsWithStar, hm, hstar]

/-- The text is cut at the sign, if that is no half of a power sign. -/
theorem Spelled.split_tightProduct (hx : Spelled .product x ms) (hy : Spelled .unary y ns)
    (hstar : y.head? ≠ some '*') : split .product (x ++ '*' :: y) =
      .ok (.node .product [] [⟨.product, x⟩, ⟨.unary, y⟩]) := by
  have hafter : startsWithStar ns = false := by
    rw [← hy.reads.textOf_eq, textOf, List.head?_map] at hstar
    cases ns with
    | nil => rfl
    | cons n ns => simpa [startsWithStar] using hstar
  refine splitProduct_eq_ok_iff.2
    ⟨_, (hx.tightProduct hy).scans, .inr ⟨⟨ms.reverse, .of '*' true, ns⟩, ?_, ?_⟩⟩
  · refine lastCut_eq_some_iff.2 ⟨by simp, ?_, hy.quiet .product _ _ (by decide) (by rintro ⟨⟩)⟩
    rw [Cut.isProductSign, hx.startsWithStar_reverse, hafter]
    rfl
  · refine twoOperands_eq_ok_iff.2 ?_
    rw [Cut.left, Cut.right, List.reverse_reverse, hx.reads.textOf_eq, hy.reads.textOf_eq,
      hx.trim_eq, hy.trim_eq]
    exact ⟨hx.ne_nil, hy.ne_nil, rfl⟩

theorem Spelled.compilesAt_tightProduct (hx : Spelled .product x ms) (hy : Spelled .unary y ns)
    (hstar : y.head? ≠ some '*') : CompilesAt l .product (x ++ '*' :: y) e ↔
      ∃ f g, CompilesAt l .product x f ∧ CompilesAt l .unary y g ∧ e = .binary .product f g :=
  compilesAt_double (hx.split_tightProduct hy hstar) rfl

/-! ## Sums -/

theorem Tag.levels?_sum : Tag.sum.levels? = some (.sum, .sum, .product) :=
  rfl

/-- The first term with the second one added to it is a first term. -/
theorem summed_cons_cons (x y : List Char) (ys : List (List Char)) :
    summed (x :: y :: ys) = summed ((x ++ ' ' :: "+".toList ++ ' ' :: y) :: ys) := by
  cases ys with
  | nil => simp [summed, Text.join]
  | cons z ys => simp [summed, Text.join_cons_cons]

theorem Spelled.exists_summed {ys : List (List Char)} (hx : Spelled .sum x ms)
    (hys : ∀ y ∈ ys, ∃ ns, Spelled .product y ns) : ∃ ns, Spelled .sum (summed (x :: ys)) ns := by
  induction ys generalizing x ms with
  | nil => exact ⟨ms, hx⟩
  | cons y ys ih =>
      obtain ⟨ns, hy⟩ := hys y (List.mem_cons_self ..)
      rw [summed_cons_cons]
      exact ih (hx.binary hy Tag.levels?_sum rfl) fun z hz => hys z (List.mem_cons_of_mem _ hz)

/-- The terms of a sum are added from left to right. -/
theorem Spelled.compilesAt_summed {ys : List (List Char)} (hx : Spelled .sum x ms)
    (hys : ∀ y ∈ ys, ∃ ns, Spelled .product y ns) : CompilesAt l .sum (summed (x :: ys)) e ↔
      ∃ f fs, CompilesAt l .sum x f ∧ List.Forall₂ (CompilesAt l .product) ys fs ∧
        e = fs.foldl (.binary .sum) f := by
  induction ys generalizing x ms with
  | nil =>
      constructor
      · intro he
        exact ⟨e, [], he, .nil, rfl⟩
      · rintro ⟨f, fs, hf, hfs, rfl⟩
        cases hfs
        exact hf
  | cons y ys ih =>
      obtain ⟨ns, hy⟩ := hys y (List.mem_cons_self ..)
      rw [summed_cons_cons, ih (hx.binary hy Tag.levels?_sum rfl)
        fun z hz => hys z (List.mem_cons_of_mem _ hz)]
      simp only [hx.compilesAt_binary hy Tag.levels?_sum rfl]
      constructor
      · rintro ⟨-, fs, ⟨f, g, hf, hg, rfl⟩, hfs, rfl⟩
        exact ⟨f, g :: fs, hf, .cons hg hfs, rfl⟩
      · rintro ⟨f, gs, hf, hgs, rfl⟩
        cases hgs with
        | cons hg hfs => exact ⟨_, _, ⟨f, _, hf, hg, rfl⟩, hfs, rfl⟩

/-- What some terms compile to, added from left to right. -/
theorem compilesAt_summed {xs : List (List Char)} (hxs : ∀ x ∈ xs, ∃ ms, Spelled .product x ms) :
    CompilesAt l .expression (summed xs) e ↔ ∃ f fs,
      List.Forall₂ (CompilesAt l .product) xs (f :: fs) ∧ e = fs.foldl (.binary .sum) f := by
  cases xs with
  | nil => exact ⟨fun he => absurd he not_compilesAt_nil, fun ⟨_, _, hfs, _⟩ => nomatch hfs⟩
  | cons x ys =>
      obtain ⟨ms, hx⟩ := hxs x (List.mem_cons_self ..)
      have hys : ∀ y ∈ ys, ∃ ns, Spelled .product y ns :=
        fun y hy => hxs y (List.mem_cons_of_mem _ hy)
      have hsum : Spelled .sum x ms := hx.loosen rfl
      obtain ⟨ns, hspelled⟩ := hsum.exists_summed hys
      rw [hspelled.compilesAt_iff_of_le (by decide), hsum.compilesAt_summed hys]
      simp only [hx.compilesAt_iff_of_le (v := .sum) (by decide), List.forall₂_cons, and_assoc]

/-- Inside brackets a sum is scanned as a part of them. -/
theorem Nested.summed {xs : List (List Char)} (hxs : ∀ x ∈ xs, ∃ ms, Spelled .product x ms) :
    Nested (summed xs) := by
  cases xs with
  | nil => exact fun _ _ => .nil
  | cons x ys =>
      obtain ⟨ms, hx⟩ := hxs x (List.mem_cons_self ..)
      obtain ⟨ns, hspelled⟩ := Spelled.exists_summed (hx.loosen (l := .sum) rfl)
        fun y hy => hxs y (List.mem_cons_of_mem _ hy)
      exact hspelled.nested

theorem Expr.reads_foldl_sum (e : Expr) (es : List Expr) :
    (es.foldl (.binary .sum) e).reads = (e :: es).flatMap Expr.reads := by
  induction es generalizing e with
  | nil => simp
  | cons f es ih => simp [ih, Expr.reads_binary]

theorem Expr.eval_foldl_sum (row : Row) (e : Expr) (es : List Expr) :
    (es.foldl (.binary .sum) e).eval row = (es.map (·.eval row)).foldl Cell.add (e.eval row) := by
  induction es generalizing e with
  | nil => rfl
  | cons f es ih => rw [List.foldl_cons, ih, List.map_cons, List.foldl_cons, Expr.eval_binary, Operator.apply]

/-! ## Numbers that were printed -/

theorem Unsigned.spelled {z : Float} (h : Unsigned z x) :
    Spelled .primary x (x.map (.of · true)) := by
  cases h with
  | number hs => exact .number hs
  | nan => exact .word (by decide) (by decide) (by decide)
  | infinity => exact .word (by decide) (by decide) (by decide)

/-- The words for doubles that are not finite are no operands. -/
theorem not_compilesAt_word (hx : x = "NaN".toList ∨ x = "Infinity".toList) :
    ¬ CompilesAt l .primary x e := by
  rintro ⟨a, ha, -⟩
  obtain ⟨s, hs, -⟩ := split_of_parseAt ha
  rcases hx with rfl | rfl <;> cases hs

theorem Unsigned.reads_eq {z : Float} (h : Unsigned z x) (he : CompilesAt l .unary x e) :
    e.reads = [] := by
  rw [h.spelled.compilesAt_iff_of_le (by decide)] at he
  cases h with
  | number hs =>
      obtain ⟨a, -, rfl⟩ := hs.compilesAt_iff.1 he
      rfl
  | nan => exact absurd he (not_compilesAt_word (.inl rfl))
  | infinity => exact absurd he (not_compilesAt_word (.inr rfl))

theorem exists_spelled_numberText (z : Float) : ∃ ms, Spelled .unary (numberText z) ms := by
  obtain ⟨s, hs, heq⟩ := numberText_cases z
  have hspelled := hs.spelled.mono (v := .unary) (by decide)
  rcases heq with heq | heq <;> rw [heq]
  · exact ⟨_, hspelled⟩
  · exact ⟨_, hspelled.negation⟩

/-- A printed number reads no column. -/
theorem reads_of_compilesAt_numberText {z : Float} (he : CompilesAt l .unary (numberText z) e) :
    e.reads = [] := by
  obtain ⟨s, hs, heq⟩ := numberText_cases z
  rcases heq with heq | heq <;> rw [heq] at he
  · exact hs.reads_eq he
  · obtain ⟨f, hf, rfl⟩ := (hs.spelled.mono (by decide)).compilesAt_negation.1 he
    rw [Expr.reads_negate]
    exact hs.reads_eq hf

/-- The printed text of a number is read back as that number. -/
def ReadsBack (z : Float) : Prop :=
  Decimal.read? (numberText z) = some z

/-- A printed number has the value that was printed. -/
theorem exists_compilesAt_numberText (l : Library) {z : Float} (hfinite : z.isFinite = true)
    (hback : ReadsBack z) :
    ∃ e, CompilesAt l .unary (numberText z) e ∧ ∀ row, e.eval row = .number z := by
  obtain ⟨s, hs, heq⟩ := numberText_cases z
  have hspelled := hs.spelled
  cases hs with
  | number hs =>
      rw [ReadsBack] at hback
      rcases heq with heq | heq <;> rw [heq] at hback ⊢
      · refine ⟨.number s z, ?_, fun row => rfl⟩
        rw [hspelled.compilesAt_iff_of_le (by decide), hs.compilesAt_iff]
        exact ⟨z, hback, rfl⟩
      · rw [hs.read?_negative] at hback
        obtain ⟨a, ha, rfl⟩ := Option.map_eq_some_iff.1 hback
        refine ⟨.negate (.number s a), ?_, fun row => rfl⟩
        rw [(hspelled.mono (by decide)).compilesAt_negation]
        refine ⟨_, ?_, rfl⟩
        rw [hspelled.compilesAt_iff_of_le (by decide), hs.compilesAt_iff]
        exact ⟨a, ha, rfl⟩
  | nan h | infinity h => cases hfinite.symm.trans h

end ColumnTree.Formula
