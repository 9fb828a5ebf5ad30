/-
# Trees are read back

What is written for a tree of the grammar is read as that tree.  At its own level the reader finds
the operator of the tree, with the texts of the operands on both sides (`Spelled`); on the looser
levels it finds nothing and goes on.
-/
import ColumnTree.Proofs.Formula.Whole

namespace ColumnTree.Formula

namespace Spelled

variable {l m left right : Level} {x y : List Char} {ms ns : List Mark}

theorem trim_before (h : Spelled l x ms) : Text.trim (x ++ [' ']) = x :=
  Text.trim_append Text.blanks_nil h.bare Text.blanks_space

theorem trim_after (h : Spelled l x ms) : Text.trim (' ' :: x) = x := by
  simpa using Text.trim_append Text.blanks_space h.bare Text.blanks_nil

theorem trim_eq (h : Spelled l x ms) : Text.trim x = x :=
  Text.trim_eq_self h.bare

/-! ## Nothing to be found -/

/-- A level hands on what belongs to a tighter one. -/
theorem split_tighter (h : Spelled m x ms) (hl : l.tighter? = some m) :
    split l x = .ok (.same ⟨m, x⟩) := by
  have hclear : Clear l.isCut [] ms [] :=
    h.quiet l [] [] (by rw [Level.rank_of_tighter? hl]; exact Nat.lt_succ_self _)
      fun _ => leads_nil
  have htrim := h.trim_eq
  cases l with
  | primary => cases hl
  | expression =>
      obtain rfl := Option.some.inj hl
      simp [split, splitExpression, htrim, h.ne_nil]
  | disjunction | conjunction =>
      obtain rfl := Option.some.inj hl
      exact splitKeyword_eq_ok_iff.2 ⟨ms, h.scans, .inl ⟨lastCut_eq_none_iff.2 hclear, rfl⟩⟩
  | comparison =>
      obtain rfl := Option.some.inj hl
      exact splitComparison_eq_ok_iff.2 ⟨ms, h.scans, .inl ⟨firstCut_eq_none_iff.2 hclear, rfl⟩⟩
  | sum =>
      obtain rfl := Option.some.inj hl
      exact splitSum_eq_ok_iff.2 ⟨ms, h.scans, .inl ⟨lastCut_eq_none_iff.2 hclear, rfl⟩⟩
  | product =>
      obtain rfl := Option.some.inj hl
      exact splitProduct_eq_ok_iff.2 ⟨ms, h.scans, .inl ⟨lastCut_eq_none_iff.2 hclear, rfl⟩⟩
  | power =>
      obtain rfl := Option.some.inj hl
      exact splitPower_eq_ok_iff.2 ⟨ms, h.scans, .inl ⟨firstCut_eq_none_iff.2 hclear, rfl⟩⟩
  | indexed =>
      obtain rfl := Option.some.inj hl
      refine splitIndexed_eq_ok_iff.2 ?_
      rw [htrim]
      split
      · exact ⟨ms, h.scans, .inl ⟨lastCut_eq_none_iff.2 hclear, rfl⟩⟩
      · rfl
  | unary =>
      obtain rfl := Option.some.inj hl
      obtain ⟨c, y, rfl, -, hsign⟩ := h.first
      obtain ⟨hminus, hplus⟩ := hsign (by decide)
      show splitUnary (c :: y) = _
      unfold splitUnary
      rw [htrim]
      split
      · next heq => exact absurd (List.cons.inj heq).1 hminus
      · next heq => exact absurd (List.cons.inj heq).1 hplus
      · rfl

/-! ## Operators -/

/-- The place of an operator. -/
def operatorCut (ms : List Mark) (o : Char) (w : List Char) (ns : List Mark) : Cut :=
  ⟨.of ' ' true :: ms.reverse, .of o true, w.map (.of · true) ++ .of ' ' true :: ns⟩

theorem eq_operatorCut (ms : List Mark) (o : Char) (w : List Char) (ns : List Mark) :
    ms ++ (operatorMarks (o :: w) ++ ns) = (operatorCut ms o w ns).before.reverse ++
      (operatorCut ms o w ns).mark :: (operatorCut ms o w ns).after := by
  simp [operatorMarks, operatorCut]

/-- The operator is the last one of its level. -/
theorem lastCut_operator {o : Char} {w : List Char} (hy : Spelled right y ns)
    (hright : right.rank < l.rank) (hw : ∀ c ∈ w, c ∉ l.cutChars)
    (hlead : l = .sum → o ∈ leaders ∧ w = [])
    (hcut : l.isCut (operatorCut ms o w ns) = true) :
    lastCut l.isCut (ms ++ (operatorMarks (o :: w) ++ ns)) = some (operatorCut ms o w ns) := by
  refine lastCut_eq_some_iff.2 ⟨eq_operatorCut .., hcut, ?_⟩
  have hblank : ' ' ∉ l.cutChars := by cases l <;> decide
  rw [operatorCut, clear_append, clear_cons]
  refine ⟨clear_top hw, ?_, ?_⟩
  · rw [← Bool.not_eq_true]
    exact fun h => hblank (Level.mem_of_isCut h).2
  · refine hy.quiet l _ [] hright fun hsum => leads_blank rfl ?_
    obtain ⟨ho, rfl⟩ := hlead hsum
    exact leads_of_mem ho

/-- The operator is the first one of its level. -/
theorem firstCut_operator {o : Char} {w : List Char} (hx : Spelled left x ms)
    (hleft : left.rank < l.rank) (hsum : l ≠ .sum)
    (hcut : l.isCut (operatorCut ms o w ns) = true) :
    firstCut l.isCut (ms ++ (operatorMarks (o :: w) ++ ns)) = some (operatorCut ms o w ns) := by
  refine firstCut_eq_some_iff.2 ⟨eq_operatorCut .., hcut, ?_⟩
  have hblank : ' ' ∉ l.cutChars := by cases l <;> decide
  rw [operatorCut, List.reverse_cons, List.reverse_reverse, clear_append, clear_singleton]
  refine ⟨hx.quiet l _ _ hleft fun h => absurd h hsum, ?_⟩
  rw [← Bool.not_eq_true]
  exact fun h => hblank (Level.mem_of_isCut h).2

theorem trim_left_operatorCut (hx : Spelled left x ms) (o : Char) (w : List Char) :
    Text.trim (operatorCut ms o w ns).left = x := by
  rw [Cut.left, operatorCut, List.reverse_cons, List.reverse_reverse, textOf_append,
    hx.reads.textOf_eq]
  exact hx.trim_before

theorem trim_right (hy : Spelled right y ns) : Text.trim (textOf (.of ' ' true :: ns)) = y := by
  rw [← List.singleton_append, textOf_append, hy.reads.textOf_eq]
  exact hy.trim_after

theorem twoOperands_operatorCut (hx : Spelled left x ms) (hy : Spelled right y ns)
    (fault : SyntaxFault) (tag : Tag) (o : Char) (w : List Char) :
    twoOperands fault tag left right (operatorCut ms o w ns).left (textOf (.of ' ' true :: ns)) =
      .ok (.node tag [] [⟨left, x⟩, ⟨right, y⟩]) := by
  refine twoOperands_eq_ok_iff.2 ?_
  rw [hx.trim_left_operatorCut, hy.trim_right]
  exact ⟨hx.ne_nil, hy.ne_nil, rfl⟩

theorem afterKeyword?_operatorCut (ms ns : List Mark) (o : Char) (w : List Char) :
    (operatorCut ms o w ns).afterKeyword? (o :: w) = some (.of ' ' true :: ns) := by
  have hblank : ∀ rest : List Mark, NoIdent (Mark.of ' ' true :: rest).head? := by
    intro rest a ha
    rw [← Option.some.inj ha]
    rfl
  refine Cut.afterKeyword?_eq_some_iff.2 ⟨rfl, hblank _, ⟨(o :: w).map (.of · true), rfl, ?_⟩,
    hblank _⟩
  simp [textOf, Function.comp_def]

theorem split_keyword {word : String} {tag : Tag} {o : Char} {w : List Char}
    (hx : Spelled l x ms) (hy : Spelled right y ns) (hword : word.toList = o :: w)
    (hcut : l.isCut = (·.hasKeyword word.toList)) (hright : right.rank < l.rank)
    (hw : ∀ c ∈ w, c ∉ l.cutChars) (hsum : l ≠ .sum) {t : List Char}
    (hscan : Scans t (ms ++ (operatorMarks word.toList ++ ns))) :
    splitKeyword word tag l right t = .ok (.node tag [] [⟨l, x⟩, ⟨right, y⟩]) := by
  have hafter := afterKeyword?_operatorCut ms ns o w
  refine splitKeyword_eq_ok_iff.2 ⟨_, hscan, .inr ⟨operatorCut ms o w ns, ?_, ?_⟩⟩
  · rw [← hcut, hword]
    refine hy.lastCut_operator hright hw (fun h => absurd h hsum) ?_
    rw [hcut, hword]
    show ((operatorCut ms o w ns).afterKeyword? (o :: w)).isSome = true
    rw [hafter]
    rfl
  · rw [hword, hafter]
    exact hx.twoOperands_operatorCut hy _ tag o w

theorem split_comparison {tag : Tag} {o : Char} {w : List Char} (hx : Spelled .sum x ms)
    (hy : Spelled .sum y ns) {t : List Char} (ho : o ∈ ['<', '>', '=', '!'])
    (htag : (operatorCut ms o w ns).comparison? = some (tag, .of ' ' true :: ns))
    (hscan : Scans t (ms ++ (operatorMarks (o :: w) ++ ns))) :
    splitComparison t = .ok (.node tag [] [⟨.sum, x⟩, ⟨.sum, y⟩]) := by
  refine splitComparison_eq_ok_iff.2 ⟨_, hscan, .inr ⟨operatorCut ms o w ns, ?_, tag, _, htag, ?_⟩⟩
  · exact hx.firstCut_operator (l := .comparison) (by decide) (by decide) (Cut.isTop_iff.2 ⟨rfl, ho⟩)
  · exact hx.twoOperands_operatorCut hy _ tag o w

theorem isBinarySign_operatorCut {o : Char} (hx : Spelled left x ms) (ho : o ∈ ['+', '-']) :
    (operatorCut ms o [] ns).isBinarySign = true := by
  obtain ⟨z, c, rfl, hc, hlead⟩ := hx.last
  obtain ⟨k, ms', hms, hk⟩ : ∃ k ms', ms.reverse = k :: ms' ∧ k.char = c := by
    have htext := congrArg List.reverse hx.reads.textOf_eq
    rw [textOf, ← List.map_reverse, List.reverse_append] at htext
    obtain ⟨k, ms', hms, hk, -⟩ := List.map_eq_cons_iff.1 htext
    exact ⟨k, ms', hms, hk⟩
  have hprev : (operatorCut ms o [] ns).previous? = some c := by
    simp [Cut.previous?, operatorCut, hms, hk, hc, show Text.isBlank ' ' = true from rfl]
  have hexp : (operatorCut ms o [] ns).isExponentSign = false := by
    simp [Cut.isExponentSign, operatorCut, hms]
  have htop : (operatorCut ms o [] ns).isTop ['+', '-'] = true := Cut.isTop_iff.2 ⟨rfl, ho⟩
  rw [Cut.isBinarySign, htop, hexp, hprev]
  simpa [leaders] using hlead

theorem split_sum {o : Char} (hx : Spelled .sum x ms) (hy : Spelled .product y ns)
    {t : List Char} (ho : o ∈ ['+', '-']) (hscan : Scans t (ms ++ (operatorMarks [o] ++ ns))) :
    splitSum t = .ok (.node (if o = '+' then .sum else .difference) []
      [⟨.sum, x⟩, ⟨.product, y⟩]) := by
  have hright : Text.trim (operatorCut ms o [] ns).right = y := hy.trim_right
  refine splitSum_eq_ok_iff.2 ⟨_, hscan, .inr ⟨operatorCut ms o [] ns, ?_, ?_, ?_⟩⟩
  · exact hy.lastCut_operator (l := .sum) (by decide) (by simp)
      (fun _ => ⟨(by decide : ∀ o ∈ ['+', '-'], o ∈ leaders) o ho, rfl⟩)
      (hx.isBinarySign_operatorCut ho)
  · rw [hright]
    exact hy.ne_nil
  · rw [hright, hx.trim_left_operatorCut]
    rfl

theorem split_product {o : Char} (hx : Spelled .product x ms) (hy : Spelled .unary y ns)
    {t : List Char} (ho : o ∈ ['*', '/']) (hscan : Scans t (ms ++ (operatorMarks [o] ++ ns))) :
    splitProduct t = .ok (.node (if o = '*' then .product else .quotient) []
      [⟨.product, x⟩, ⟨.unary, y⟩]) := by
  refine splitProduct_eq_ok_iff.2 ⟨_, hscan, .inr ⟨operatorCut ms o [] ns, ?_, ?_⟩⟩
  · refine hy.lastCut_operator (l := .product) (by decide) (by simp) (fun h => nomatch h) ?_
    simp only [List.mem_cons, List.not_mem_nil, or_false] at ho
    rcases ho with rfl | rfl <;> rfl
  · exact hx.twoOperands_operatorCut hy _ _ o []

theorem split_power (hx : Spelled .indexed x ms) (hy : Spelled .unary y ns)
    {t : List Char} (hscan : Scans t (ms ++ (operatorMarks ['*', '*'] ++ ns))) :
    splitPower t = .ok (.node .power [] [⟨.indexed, x⟩, ⟨.unary, y⟩]) := by
  refine splitPower_eq_ok_iff.2 ⟨_, hscan, .inr ⟨operatorCut ms '*' ['*'] ns, ?_, ?_⟩⟩
  · exact hx.firstCut_operator (l := .power) (by decide) (by decide) rfl
  · exact hx.twoOperands_operatorCut hy _ _ '*' ['*']

/-- The text of an operator and its operands is cut at the operator. -/
theorem split_binary {tag : Tag} {op : String} (hx : Spelled left x ms) (hy : Spelled right y ns)
    (htag : tag.levels? = some (l, left, right)) (hop : tag.operator? = some op) :
    split l (x ++ ' ' :: op.toList ++ ' ' :: y) = .ok (.node tag [] [⟨left, x⟩, ⟨right, y⟩]) := by
  have hscan := (hx.binary hy htag hop).scans
  cases tag <;>
    simp only [Tag.levels?, reduceCtorEq, Option.some.injEq, Prod.mk.injEq] at htag <;>
    obtain ⟨rfl, rfl, rfl⟩ := htag <;>
    simp only [Tag.operator?, Option.some.injEq] at hop <;>
    subst hop
  case disjunction =>
    exact hx.split_keyword hy (o := 'o') (w := ['r']) rfl rfl (by decide) (by decide) (by decide)
      hscan
  case conjunction =>
    exact hx.split_keyword hy (o := 'a') (w := ['n', 'd']) rfl rfl (by decide) (by decide) (by decide)
      hscan
  case sum => exact hx.split_sum hy (o := '+') (by decide) hscan
  case difference => exact hx.split_sum hy (o := '-') (by decide) hscan
  case product => exact hx.split_product hy (o := '*') (by decide) hscan
  case quotient => exact hx.split_product hy (o := '/') (by decide) hscan
  case power => exact hx.split_power hy hscan
  case le => exact hx.split_comparison hy (o := '<') (w := ['=']) (by decide) rfl hscan
  case lt => exact hx.split_comparison hy (o := '<') (w := []) (by decide) rfl hscan
  case ge => exact hx.split_comparison hy (o := '>') (w := ['=']) (by decide) rfl hscan
  case gt => exact hx.split_comparison hy (o := '>') (w := []) (by decide) rfl hscan
  case equal => exact hx.split_comparison hy (o := '=') (w := ['=']) (by decide) rfl hscan
  case unequal => exact hx.split_comparison hy (o := '!') (w := ['=']) (by decide) rfl hscan

/-- A sign in front of an operand is cut off. -/
theorem split_negation (h : Spelled .unary x ms) :
    split .unary ('-' :: x) = .ok (.node .negation [] [⟨.unary, x⟩]) := by
  have htrim := h.trim_eq
  show splitUnary ('-' :: x) = _
  unfold splitUnary
  rw [h.negation.trim_eq]
  show (if (Text.trim x).isEmpty then _ else _) = _
  rw [htrim, if_neg (by simpa using h.ne_nil)]

/-! ## Indexes -/

/-- Where an index ends, the text is cut at the last bracket that opens on top. -/
theorem split_index (hx : Spelled .indexed x ms) (hy : Nested y) {wrapped : Bool}
    (hwrapped : isWrapped x = .ok wrapped) : split .indexed (x ++ '[' :: y ++ [']']) =
      .ok (if wrapped then .index .indexParentheses ⟨.primary, x⟩ ⟨.expression, y⟩
        else .index .index ⟨.indexed, x⟩ ⟨.expression, y⟩) := by
  have h := hx.index hy
  let c : Cut := ⟨ms.reverse, .of '[' true, y.map (.of · false) ++ [.of ']' true]⟩
  have hleft : c.left = x := by
    rw [Cut.left, List.reverse_reverse]
    exact hx.reads.textOf_eq
  have hright : c.right = y ++ [']'] := by
    simp [c, Cut.right, textOf, Function.comp_def]
  refine splitIndexed_eq_ok_iff.2 ?_
  rw [h.trim_eq, if_pos List.getLast?_concat]
  refine ⟨_, h.scans, .inr ⟨c, ?_, ?_, wrapped, ?_, ?_⟩⟩
  · refine lastCut_eq_some_iff.2 ⟨by simp [c], rfl, ?_⟩
    rw [clear_append]
    exact ⟨clear_nested (l := .indexed), clear_top (l := .indexed) (x := [']']) (by decide)⟩
  · rw [hleft, hx.trim_eq]
    exact hx.ne_nil
  · rwa [hleft, hx.trim_eq]
  · rw [hleft, hright, hx.trim_eq, List.dropLast_concat]

end Spelled

/-! ## Parentheses and calls -/

/-- What does not both begin and end with a parenthesis is not in parentheses. -/
theorem isWrapped_eq_false {t : List Char}
    (h : ¬ (t.head? = some '(' ∧ t.getLast? = some ')')) : isWrapped t = .ok false := by
  rw [isWrapped_eq_ok_iff, if_neg h]

theorem isWrapped_parentheses {y : List Char} (h : Nested y) :
    isWrapped ('(' :: y ++ [')']) = .ok true := by
  rw [isWrapped_eq_ok_iff, if_pos ⟨rfl, List.getLast?_concat⟩]
  refine ⟨_, (Spelled.parentheses h).scans, ?_⟩
  have hinner : (y.map (Mark.of · false)).filter (·.top) = [] := by
    rw [List.filter_eq_nil_iff]
    simp
  simp [List.filter_cons, List.filter_append, hinner]

theorem head?_identifier {name rest : List Char} (h : isIdentifier name = true) :
    ∃ c, (name ++ rest).head? = some c ∧ isIdentChar c = true ∧ c.isDigit = false := by
  obtain ⟨hhead, hall⟩ := Bool.and_eq_true_iff.1 h
  cases name with
  | nil => cases hhead
  | cons c name =>
      refine ⟨c, rfl, List.all_eq_true.1 hall c (List.mem_cons_self ..), ?_⟩
      rw [← Bool.not_eq_true]
      intro hdigit
      rcases Bool.or_eq_true_iff.1 hhead with hc | hc
      · rw [isAlphabetic_of_isDigit hdigit] at hc
        cases hc
      · rw [beq_iff_eq.1 hc] at hdigit
        cases hdigit

/-- Only parentheses begin and end with one. -/
theorem isWrapped_write {a : Ast} (h : Shaped .indexed a)
    (hne : ∀ cs, a ≠ .node .parentheses cs) : isWrapped a.write = .ok false := by
  refine isWrapped_eq_false ?_
  rintro ⟨hhead, hlast⟩
  cases h with
  | binary htag _ _ => exact absurd (Tag.rank_of_levels? htag) (by decide)
  | index _ _ _ =>
      have := hlast.symm.trans List.getLast?_concat
      cases this
  | indexParentheses _ _ =>
      have := hlast.symm.trans List.getLast?_concat
      cases this
  | loosen hl h =>
      obtain rfl := Option.some.inj hl
      cases h with
      | loosen hl _ => cases hl
      | binary htag _ _ => exact absurd (Tag.rank_of_levels? htag) (by decide)
      | parentheses _ => exact hne _ rfl
      | call hname _ =>
          rw [write_call, List.append_assoc] at hhead
          obtain ⟨c, hc, hident, -⟩ := head?_identifier hname.identifier
          obtain rfl := Option.some.inj (hc.symm.trans hhead)
          cases hident
      | number hs =>
          have := hs.head
          rw [write_number] at hhead
          rw [hhead] at this
          cases this
      | _ => cases hhead

/-! ## Arguments -/

theorem commaPieces_append {current : List Char} {ms rest : List Mark}
    (h : ∀ m ∈ ms, m.top = true → m.char ≠ ',') :
    commaPieces current (ms ++ rest) = commaPieces ((textOf ms).reverse ++ current) rest := by
  induction ms generalizing current with
  | nil => rfl
  | cons m ms ih =>
      have hm : (m.top && m.char == ',') = false := by
        cases htop : m.top with
        | false => rfl
        | true => simpa using h m (List.mem_cons_self ..) htop
      rw [List.cons_append, commaPieces, hm, if_neg Bool.false_ne_true,
        ih fun n hn => h n (List.mem_cons_of_mem _ hn)]
      simp [textOf]

/-- Between the commas stand the texts that were joined, but for the first one with what stands behind a
comma in front. -/
theorem exists_commaPieces {sep x : List Char} {xs : List (List Char)}
    (hsep : ∀ c ∈ sep, Ordinary c ∧ c ≠ ',') (h : ∀ y ∈ x :: xs, Whole y) (current : List Char) :
    ∃ ms, Reads ⟨.plain false, []⟩ (Text.join (',' :: sep) (x :: xs)) ms ⟨.plain false, []⟩ ∧
      commaPieces current ms = (current.reverse ++ x) :: xs.map (sep ++ ·) := by
  induction xs generalizing x current with
  | nil =>
      obtain ⟨ms, hms, hcomma⟩ := h x (List.mem_singleton.2 rfl)
      refine ⟨ms, hms, ?_⟩
      rw [← List.append_nil ms, commaPieces_append hcomma, hms.textOf_eq, commaPieces]
      simp
  | cons y xs ih =>
      obtain ⟨ms, hms, hcomma⟩ := h x (List.mem_cons_self ..)
      obtain ⟨ss, hss, hscomma⟩ := Whole.of_ordinary hsep
      obtain ⟨ns, hns, hpieces⟩ := ih (fun z hz => h z (List.mem_cons_of_mem _ hz)) sep.reverse
      refine ⟨ms ++ .of ',' true :: (ss ++ ns), ?_, ?_⟩
      · rw [Text.join_cons_cons, List.append_assoc]
        exact hms.append (.cons rfl (hss.append hns))
      · rw [commaPieces_append hcomma, hms.textOf_eq, commaPieces, if_pos (by rfl),
          commaPieces_append hscomma, hss.textOf_eq, List.append_nil, hpieces]
        simp

theorem trim_join_ne_nil {sep x : List Char} {xs : List (List Char)} (h : Text.trim x ≠ []) :
    Text.trim (Text.join sep (x :: xs)) ≠ [] := by
  have hfront : x <+: Text.join sep (x :: xs) := by
    cases xs with
    | nil => exact List.prefix_refl x
    | cons y xs =>
        rw [Text.join_cons_cons, List.append_assoc]
        exact List.prefix_append ..
  rw [Ne, Text.trim_eq_nil_iff] at h ⊢
  exact fun hjoin => h fun c hc => hjoin c (hfront.subset hc)

/-- A blank in front of an argument does not matter. -/
theorem parseAt_blank {x : List Char} {ms : List Mark} (h : Spelled .expression x ms) :
    parseAt ⟨.expression, ' ' :: x⟩ = parseAt ⟨.expression, x⟩ := by
  have hsplit : ∀ t, Text.trim t = x → split .expression t = .ok (.same ⟨.disjunction, x⟩) := by
    intro t ht
    simp [split, splitExpression, ht, h.ne_nil]
  rw [parseAt_of_split (p := ⟨.expression, x⟩) (hsplit x h.trim_eq),
    parseAt_of_split (p := ⟨.expression, ' ' :: x⟩) (hsplit (' ' :: x) h.trim_after)]

/-- The arguments of a call are read back. -/
theorem exists_argumentPieces {args : List Ast} (h : ∀ a ∈ args, Shaped .expression a)
    (hparse : ∀ a ∈ args, parseAt ⟨.expression, a.write⟩ = .ok a) :
    ∃ ps, argumentPieces (Text.join [',', ' '] (args.map Ast.write)) = .ok ps ∧
      ps.map parseAt = args.map .ok := by
  cases args with
  | nil => exact ⟨[], rfl, rfl⟩
  | cons a args =>
      obtain ⟨ms, hreads, hpieces⟩ := @exists_commaPieces [' '] a.write (args.map Ast.write)
        (by decide)
        (by
          intro y hy
          rw [← List.map_cons (f := Ast.write)] at hy
          obtain ⟨b, hb, rfl⟩ := List.mem_map.1 hy
          exact (h b hb).spelled.choose_spec.whole) []
      obtain ⟨ns, hns⟩ := (h a (List.mem_cons_self ..)).spelled
      refine ⟨(commaPieces [] ms).map fun s => ⟨.expression, s⟩, argumentPieces_eq_ok_iff.2 ?_,
        ?_⟩
      · rw [List.map_cons, if_neg (trim_join_ne_nil (by rw [hns.trim_eq]; exact hns.ne_nil))]
        exact ⟨ms, ⟨false, hreads⟩, rfl⟩
      · rw [hpieces, List.map_cons, List.map_cons, List.map_cons]
        refine congr (congrArg List.cons (hparse a (List.mem_cons_self ..))) ?_
        rw [List.map_map, List.map_map, List.map_map]
        refine List.map_congr_left fun b hb => ?_
        obtain ⟨ms, hms⟩ := (h b (List.mem_cons_of_mem _ hb)).spelled
        exact (parseAt_blank hms).trans (hparse b (List.mem_cons_of_mem _ hb))

/-! ## Single operands -/

section Operands

/-- What is in parentheses is cut out of them. -/
theorem split_parentheses {x : List Char} (h : Nested x) :
    split .primary ('(' :: x ++ [')']) = .ok (.node .parentheses [] [⟨.expression, x⟩]) := by
  have htrim := (Spelled.parentheses h).trim_eq
  have hsplit := splitPrimary_of_isWrapped (t := '(' :: x ++ [')'])
    (by rw [htrim]; exact isWrapped_parentheses h)
  rw [split, hsplit, htrim, List.cons_append, inside_cons_append]

/-- A text that neither is a reference nor stands in parentheses nor begins with a quote. -/
theorem split_word {x : List Char} {ms : List Mark} {c : Char} (h : Spelled .primary x ms)
    (hc : x.head? = some c) (hchar : c ∉ ['$', '"', '\'', '(']) :
    split .primary x = splitWord x := by
  have hwrapped : isWrapped x = .ok false := by
    refine isWrapped_eq_false fun hends => hchar ?_
    rw [Option.some.inj (hc.symm.trans hends.1)]
    decide
  simp only [List.mem_cons, List.not_mem_nil, or_false, not_or] at hchar
  show splitPrimary x = _
  simp only [splitPrimary, h.trim_eq, hc, hwrapped]
  split
  · next heq => cases heq
  · next heq => exact absurd (Option.some.inj heq) hchar.1
  · next heq =>
    rw [if_neg]
    rw [← Option.some.inj heq]
    exact fun h => h.elim hchar.2.1 hchar.2.2.1

/-- A text that begins with a digit or a point is a number or none. -/
theorem split_figures {x : List Char} {ms : List Mark} (h : Spelled .primary x ms)
    (hhead : x.head?.any (fun c => c.isDigit || c == '.') = true) :
    split .primary x = if (Decimal.read? x).isSome then .ok (.done (.leaf .number (String.ofList x)))
      else .error (.badNumber (String.ofList x)) := by
  obtain ⟨c, hc, hfigure⟩ : ∃ c, x.head? = some c ∧ (c.isDigit || c == '.') = true := by
    simpa [Option.any_eq_true] using hhead
  have hne : ∀ d, (d.isDigit || d == '.') = false → c ≠ d := by
    rintro d hd rfl
    rw [hfigure] at hd
    cases hd
  rw [split_word h hc]
  · have hword : ∀ w : List Char, w.head?.any (fun d => d.isDigit || d == '.') = false → x ≠ w := by
      rintro w hw rfl
      rw [hhead] at hw
      cases hw
    rw [splitWord, if_neg (hword _ (by decide)), if_neg (hword _ (by decide)),
      if_neg (not_or.2 ⟨hword _ (by decide), hword _ (by decide)⟩), if_pos hhead]
  · intro hmem
    simp only [List.mem_cons, List.not_mem_nil, or_false] at hmem
    rcases hmem with h | h | h | h <;> exact hne _ (by rfl) h

theorem split_number {s : String} (h : IsNumber s.toList) :
    split .primary s.toList = .ok (.done (.leaf .number s)) := by
  rw [split_figures (Spelled.number h) h.head, if_pos h.reads, String.ofList_toList]

theorem trim_identifier {name : List Char} (h : ∀ c ∈ name, isIdentChar c = true) :
    Text.trim name = name :=
  Text.trim_eq_self (Text.bare_of_forall fun c hc => isBlank_of_isIdentChar (h c hc))

/-- A call is cut into its name and its arguments. -/
theorem split_call {name : String} {inner : List Char} {ps : List Piece}
    (hname : IsCallable name.toList)
    (hinner : Nested inner) (hargs : argumentPieces inner = .ok ps) :
    split .primary (name.toList ++ '(' :: inner ++ [')']) = .ok (.node .call [name] ps) := by
  have hident := List.all_eq_true.1 (Bool.and_eq_true_iff.1 hname.identifier).2
  have hspelled := Spelled.enclosed hident hname.ne_or hname.ne_and hinner
  rw [List.append_assoc] at hspelled ⊢
  obtain ⟨c, hc, hcident, hdigit⟩ := @head?_identifier name.toList
    ('(' :: inner ++ [')']) hname.identifier
  have hne : ∀ d, isIdentChar d = false → c ≠ d := by
    rintro d hd rfl
    rw [hcident] at hd
    cases hd
  have hmem : '(' ∈ name.toList ++ ('(' :: inner ++ [')']) := by simp
  have hword : ∀ w : List Char, '(' ∉ w → name.toList ++ ('(' :: inner ++ [')']) ≠ w := by
    rintro w hw rfl
    exact hw hmem
  have hfigure : ((name.toList ++ ('(' :: inner ++ [')'])).head?.any
      fun c => c.isDigit || c == '.') = false := by
    rw [hc]
    simpa [hdigit] using hne '.' rfl
  have hstop : ∀ c ∈ name.toList, (c != '(') = true := by
    intro c hc
    rw [bne_iff_ne]
    rintro rfl
    cases hident '(' hc
  rw [split_word hspelled hc, splitWord, if_neg (hword _ (by decide)), if_neg (hword _ (by decide)),
    if_neg (not_or.2 ⟨hword _ (by decide), hword _ (by decide)⟩), hfigure,
    if_neg Bool.false_ne_true]
  · have htake : (name.toList ++ ('(' :: inner ++ [')'])).takeWhile (· != '(') = name.toList := by
      rw [List.takeWhile_append_of_pos hstop]
      simp
    have hdrop : (name.toList ++ ('(' :: inner ++ [')'])).dropWhile (· != '(') =
        '(' :: inner ++ [')'] := by
      rw [List.dropWhile_append_of_pos hstop]
      simp
    simp only [splitCall, htake, hdrop, trim_identifier hident, hname.identifier,
      isWrapped_parentheses hinner]
    rw [List.cons_append, inside_cons_append, hargs, String.ofList_toList]
    rfl
  · intro hmem
    simp only [List.mem_cons, List.not_mem_nil, or_false] at hmem
    rcases hmem with h | h | h | h <;> exact hne _ (by rfl) h

theorem split_reference {s : List Char} {step : Step} (h : Balanced s) :
    split .primary ('$' :: '(' :: (s ++ [')'])) = .ok step ↔
      Text.trim s ≠ [] ∧ step = .done (.leaf .column (String.ofList (Text.trim s))) := by
  rw [← splitReference_balanced h]
  show splitPrimary _ = _ ↔ _
  simp only [splitPrimary, (Spelled.column h).trim_eq]
  exact Iff.rfl

theorem split_column {name : String} (h : IsColumnName name.toList) :
    split .primary ('$' :: '(' :: (name.toList ++ [')'])) = .ok (.done (.leaf .column name)) := by
  refine (split_reference h.balanced).2 ⟨?_, ?_⟩
  · rw [h.trimmed]
    exact h.ne_nil
  · rw [h.trimmed, String.ofList_toList]

/-- What begins with a quote is read as a text literal or not at all. -/
theorem split_quote {q : Char} {t : List Char} (hq : q = '"' ∨ q = '\'')
    (hhead : (Text.trim t).head? = some q) : split .primary t = splitText q (Text.trim t) := by
  have hwrapped : isWrapped (Text.trim t) = .ok false := by
    refine isWrapped_eq_false ?_
    rintro ⟨hopen, -⟩
    obtain rfl : q = '(' := Option.some.inj (hhead.symm.trans hopen)
    simp at hq
  show splitPrimary t = _
  rcases hq with rfl | rfl <;> simp [splitPrimary, hhead, hwrapped]

theorem split_literal {q : Char} {x v : List Char} (hq : q = '"' ∨ q = '\'') (h : Escaped q x v) :
    split .primary (q :: (x ++ [q])) = .ok (.done (.leaf .text (String.ofList v))) := by
  have htrim : Text.trim (q :: (x ++ [q])) = q :: (x ++ [q]) := (Spelled.literal hq h).trim_eq
  rw [split_quote hq (by rw [htrim]; rfl), htrim]
  exact (splitText_eq_ok_iff_escaped hq rfl).2 ⟨x, v, rfl, h, rfl⟩

end Operands

/-! ## Trees of texts -/

section Trees

variable {l left right : Level} {x y : List Char} {ms ns : List Mark} {a b : Ast}

theorem Spelled.parseAt_binary {tag : Tag} {op : String} (hx : Spelled left x ms)
    (hy : Spelled right y ns) (htag : tag.levels? = some (l, left, right))
    (hop : tag.operator? = some op) (ha : parseAt ⟨left, x⟩ = .ok a)
    (hb : parseAt ⟨right, y⟩ = .ok b) :
    parseAt ⟨l, x ++ ' ' :: op.toList ++ ' ' :: y⟩ = .ok (.node tag [a, b]) :=
  (parseAt_of_split (p := ⟨_, _⟩) (hx.split_binary hy htag hop)).trans
    (Step.tree_double_eq_ok_iff.2 ⟨a, b, ha, hb, rfl⟩)

theorem Spelled.parseAt_negation (hx : Spelled .unary x ms) (ha : parseAt ⟨.unary, x⟩ = .ok a) :
    parseAt ⟨.unary, '-' :: x⟩ = .ok (.node .negation [a]) :=
  (parseAt_of_split (p := ⟨_, _⟩) hx.split_negation).trans
    (Step.tree_single_eq_ok_iff.2 ⟨a, ha, rfl⟩)

theorem parseAt_parentheses (hx : Nested x) (ha : parseAt ⟨.expression, x⟩ = .ok a) :
    parseAt ⟨.primary, '(' :: x ++ [')']⟩ = .ok (.node .parentheses [a]) :=
  (parseAt_of_split (p := ⟨_, _⟩) (split_parentheses hx)).trans
    (Step.tree_single_eq_ok_iff.2 ⟨a, ha, rfl⟩)

/-- The target of this index is in parentheses. -/
theorem parseAt_indexParentheses (hx : Nested x) (hy : Nested y)
    (ha : parseAt ⟨.expression, x⟩ = .ok a) (hb : parseAt ⟨.expression, y⟩ = .ok b) :
    parseAt ⟨.indexed, '(' :: x ++ [')'] ++ '[' :: y ++ [']']⟩ =
      .ok (.node .indexParentheses [.node .parentheses [a], b]) := by
  have htarget := Spelled.parentheses hx
  exact (parseAt_of_split (p := ⟨_, _⟩)
    ((htarget.loosen (l := .indexed) rfl).split_index hy (isWrapped_parentheses hx))).trans
      (Step.tree_index_eq_ok_iff.2 ⟨_, b, parseAt_parentheses hx ha, hb, rfl⟩)

theorem parseAt_call {name : String} {ps : List Piece} {as : List Ast}
    (hname : IsCallable name.toList) (hx : Nested x) (hargs : argumentPieces x = .ok ps) (has : ps.map parseAt = as.map .ok) :
    parseAt ⟨.primary, name.toList ++ '(' :: x ++ [')']⟩ =
      .ok (.node .call (.token name :: as)) :=
  (parseAt_of_split (p := ⟨_, _⟩) (split_call hname hx hargs)).trans
    (Step.tree_node_eq_ok_iff.2 ⟨as, has, rfl⟩)

end Trees

/-! ## All trees -/

/-- Every tree of the grammar is read back from its text, at its own level and at all looser ones. -/
theorem parseAt_write {l : Level} {a : Ast} (h : Shaped l a) : parseAt ⟨l, a.write⟩ = .ok a := by
  induction h with
  | loosen hl h ih =>
      obtain ⟨ms, hms⟩ := h.spelled
      exact (parseAt_of_split (p := ⟨_, _⟩) (hms.split_tighter hl)).trans ih
  | binary htag ha hb iha ihb =>
      obtain ⟨ms, hms⟩ := ha.spelled
      obtain ⟨ns, hns⟩ := hb.spelled
      obtain ⟨op, hop, -⟩ := Tag.operator_of_levels? htag
      rw [write_binary htag hop]
      exact hms.parseAt_binary hns htag hop iha ihb
  | negation ha ih =>
      obtain ⟨ms, hms⟩ := ha.spelled
      exact hms.parseAt_negation ih
  | index ha hne hk iha ihk =>
      obtain ⟨ms, hms⟩ := ha.spelled
      obtain ⟨ns, hns⟩ := hk.spelled
      exact (parseAt_of_split (p := ⟨_, _⟩) (hms.split_index hns.nested (isWrapped_write ha hne))).trans
        (Step.tree_index_eq_ok_iff.2 ⟨_, _, iha, ihk, rfl⟩)
  | @indexParentheses a k ha hk iha ihk =>
      obtain ⟨ms, hms⟩ := ha.spelled
      obtain ⟨ns, hns⟩ := hk.spelled
      exact parseAt_indexParentheses hms.nested hns.nested iha ihk
  | parentheses ha ih =>
      obtain ⟨ms, hms⟩ := ha.spelled
      exact parseAt_parentheses hms.nested ih
  | @call name args hname hargs ih =>
      obtain ⟨ps, hps, hparse⟩ := exists_argumentPieces hargs ih
      rw [write_call]
      refine parseAt_call hname (Nested.join (by decide) fun x hx => ?_) hps hparse
      obtain ⟨a, ha, rfl⟩ := List.mem_map.1 hx
      obtain ⟨ms, hms⟩ := (hargs a ha).spelled
      exact hms.nested
  | column hname => exact parseAt_of_split (p := ⟨_, _⟩) (split_column hname)
  | @text s =>
      have hsplit := split_literal (.inl rfl) (escaped_escapeIn (.inl rfl) s.toList)
      rw [String.ofList_toList] at hsplit
      exact parseAt_of_split (p := ⟨.primary, _⟩) hsplit
  | @number s hs =>
      rw [write_number]
      exact parseAt_of_split (p := ⟨_, _⟩) (split_number hs)
  | trueLiteral => exact parseAt_of_split (p := ⟨.primary, "true".toList⟩) rfl
  | falseLiteral => exact parseAt_of_split (p := ⟨.primary, "false".toList⟩) rfl
  | euler => exact parseAt_of_split (p := ⟨.primary, ['e']⟩) rfl

end ColumnTree.Formula
