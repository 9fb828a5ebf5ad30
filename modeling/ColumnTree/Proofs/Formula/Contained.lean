/-
# Every formula is a whole text

What can be read is `Whole`: whatever quotes, brackets, commas and names stand in it, nothing of it
reaches out of it.  A step of the reader cuts a text at an operator, which is plain text, or takes it out
of brackets; so the text is whole if its pieces are (`Step.Covers`), and of the texts without pieces
references, literals and words are looked at one by one.
-/
import ColumnTree.Proofs.Formula.Sound
import ColumnTree.Proofs.Formula.Whole

namespace ColumnTree.Formula

/-- If the pieces of a step are whole, then so is the text that they were cut from. -/
def Step.Covers (t : List Char) (s : Step) : Prop :=
  (∀ q ∈ s.pieces, Whole q.text) → Whole t

/-! ## Steps -/

namespace Step

variable {t : List Char} {q : Piece}

/-- If a step leads to a tree, then each of its pieces can be read. -/
theorem exists_tree_of_mem {s : Step} {a : Ast} (h : s.tree = .ok a) (hq : q ∈ s.pieces) :
    ∃ b, parseAt q = .ok b := by
  cases s with
  | done => cases hq
  | same p =>
      rw [List.mem_singleton.1 hq]
      exact ⟨a, h⟩
  | node tag head ps =>
      obtain ⟨cs, hcs, -⟩ := tree_node_eq_ok_iff.1 h
      have hmem : parseAt q ∈ cs.map Except.ok := hcs ▸ List.mem_map_of_mem hq
      obtain ⟨b, -, hb⟩ := List.mem_map.1 hmem
      exact ⟨b, hb.symm⟩
  | index tag p k =>
      obtain ⟨b, c, hb, hc, -⟩ := tree_index_eq_ok_iff.1 h
      simp only [pieces, List.mem_cons, List.not_mem_nil, or_false] at hq
      rcases hq with rfl | rfl
      · exact ⟨c, hc⟩
      · exact ⟨b, hb⟩

theorem covers_same (h : Whole q.text → Whole t) : (same q).Covers t :=
  fun hpieces => h (hpieces q (List.mem_singleton.2 rfl))

theorem covers_single {tag : Tag} {head : List String} (h : Whole q.text → Whole t) :
    (node tag head [q]).Covers t :=
  fun hpieces => h (hpieces q (List.mem_singleton.2 rfl))

theorem covers_index {tag : Tag} {p : Piece} (h : Whole p.text → Whole q.text → Whole t) :
    (index tag p q).Covers t :=
  fun hpieces => h (hpieces p (List.mem_cons_of_mem _ (List.mem_cons_self ..)))
    (hpieces q (List.mem_cons_self ..))

/-- An operator between two operands. -/
theorem covers_operator {tag : Tag} {left right : Level} {b w r : List Mark}
    (hscan : Scans t (b ++ (w ++ r))) (hw : ∀ n ∈ w, Ordinary n.char ∧ n.char ≠ ',') :
    (node tag [] [⟨left, Text.trim (textOf b)⟩, ⟨right, Text.trim (textOf r)⟩]).Covers t := by
  intro hpieces
  have hb : Whole (textOf b) := .of_trim (hpieces _ (List.mem_cons_self ..))
  have hr : Whole (textOf r) :=
    .of_trim (hpieces _ (List.mem_cons_of_mem _ (List.mem_cons_self ..)))
  have hoperator : Whole (textOf w) := .of_ordinary fun c hc => by
    obtain ⟨n, hn, rfl⟩ := List.mem_map.1 hc
    exact hw n hn
  rw [← hscan.textOf_eq, textOf_append, textOf_append]
  exact hb.append (hoperator.append hr)

end Step

/-! ## Operators -/

section Operators

variable {t : List Char} {s : Step}

theorem covers_splitExpression (h : splitExpression t = .ok s) : s.Covers t := by
  unfold splitExpression at h
  split at h
  · cases h
  · rw [← Except.ok.inj h]
    exact Step.covers_same .of_trim

theorem covers_splitKeyword {word : String} {tag : Tag} {this next : Level}
    (hword : ∀ c ∈ word.toList, Ordinary c ∧ c ≠ ',')
    (h : splitKeyword word tag this next t = .ok s) : s.Covers t := by
  obtain ⟨ms, hscan, ⟨-, rfl⟩ | ⟨c, hsome, hop⟩⟩ := splitKeyword_eq_ok_iff.1 h
  · exact Step.covers_same id
  · obtain ⟨rfl, hc, -⟩ := lastCut_eq_some_iff.1 hsome
    obtain ⟨rest, hrest⟩ := Option.isSome_iff_exists.1 hc
    obtain ⟨-, -, ⟨ws, hws, hchars⟩, -⟩ := Cut.afterKeyword?_eq_some_iff.1 hrest
    rw [hrest] at hop
    obtain ⟨-, -, rfl⟩ := twoOperands_eq_ok_iff.1 hop
    rw [hws] at hscan
    exact Step.covers_operator hscan fun n hn =>
      hword _ (by rw [← hchars]; exact List.mem_map_of_mem hn)

theorem covers_splitComparison (h : splitComparison t = .ok s) : s.Covers t := by
  obtain ⟨ms, hscan, ⟨-, rfl⟩ | ⟨c, hsome, tag, rest, htag, hop⟩⟩ := splitComparison_eq_ok_iff.1 h
  · exact Step.covers_same id
  · obtain ⟨rfl, hc, -⟩ := firstCut_eq_some_iff.1 hsome
    obtain ⟨-, hchar⟩ := Cut.isTop_iff.1 hc
    obtain ⟨-, w, hafter, hw⟩ := comparison?_eq_some htag
    obtain ⟨-, -, rfl⟩ := twoOperands_eq_ok_iff.1 hop
    rw [hafter, ← List.cons_append] at hscan
    refine Step.covers_operator hscan fun n hn => ?_
    rcases List.mem_cons.1 hn with rfl | hn
    · exact (by decide : ∀ a ∈ ['<', '>', '=', '!'], Ordinary a ∧ a ≠ ',') _ hchar
    · rw [hw n hn]
      decide

theorem covers_splitSum (h : splitSum t = .ok s) : s.Covers t := by
  obtain ⟨ms, hscan, ⟨-, rfl⟩ | ⟨c, hsome, -, rfl⟩⟩ := splitSum_eq_ok_iff.1 h
  · exact Step.covers_same id
  · obtain ⟨rfl, hc, -⟩ := lastCut_eq_some_iff.1 hsome
    obtain ⟨-, hchar⟩ := Level.mem_of_isCut (l := .sum) hc
    refine Step.covers_operator (w := [c.mark]) hscan fun n hn => ?_
    rw [List.mem_singleton.1 hn]
    exact (by decide : ∀ a ∈ ['+', '-'], Ordinary a ∧ a ≠ ',') _ hchar

theorem covers_splitProduct (h : splitProduct t = .ok s) : s.Covers t := by
  obtain ⟨ms, hscan, ⟨-, rfl⟩ | ⟨c, hsome, hop⟩⟩ := splitProduct_eq_ok_iff.1 h
  · exact Step.covers_same id
  · obtain ⟨rfl, hc, -⟩ := lastCut_eq_some_iff.1 hsome
    obtain ⟨-, hchar⟩ := Level.mem_of_isCut (l := .product) hc
    obtain ⟨-, -, rfl⟩ := twoOperands_eq_ok_iff.1 hop
    refine Step.covers_operator (w := [c.mark]) hscan fun n hn => ?_
    rw [List.mem_singleton.1 hn]
    exact (by decide : ∀ a ∈ ['*', '/'], Ordinary a ∧ a ≠ ',') _ hchar

theorem covers_splitUnary (h : splitUnary t = .ok s) : s.Covers t := by
  have hsign : ∀ {c : Char} {rest : List Char}, c ∈ ['-', '+'] → Text.trim t = c :: rest →
      Whole rest → Whole t := by
    intro c rest hc htrim hrest
    have hplain : Whole [c] := .of_ordinary fun d hd => by
      rw [List.mem_singleton.1 hd]
      exact (by decide : ∀ a ∈ ['-', '+'], Ordinary a ∧ a ≠ ',') c hc
    refine .of_trim ?_
    rw [htrim]
    exact hplain.append hrest
  unfold splitUnary at h
  split at h
  · next rest htrim =>
    split at h
    · cases h
    · rw [← Except.ok.inj h]
      exact Step.covers_single (hsign (by decide) htrim)
  · next rest htrim =>
    rw [← Except.ok.inj h]
    exact Step.covers_same (hsign (by decide) htrim)
  · rw [← Except.ok.inj h]
    exact Step.covers_same .of_trim

theorem covers_splitPower (h : splitPower t = .ok s) : s.Covers t := by
  obtain ⟨ms, hscan, ⟨-, rfl⟩ | ⟨c, hsome, hop⟩⟩ := splitPower_eq_ok_iff.1 h
  · exact Step.covers_same id
  · obtain ⟨rfl, hc, -⟩ := firstCut_eq_some_iff.1 hsome
    obtain ⟨-, n, hafter, hstars⟩ := Cut.exists_of_isPowerSign hc
    obtain ⟨-, -, rfl⟩ := twoOperands_eq_ok_iff.1 hop
    rw [hafter] at hscan
    refine Step.covers_operator (w := [c.mark, n]) hscan fun k hk => ?_
    rw [hstars k hk]
    decide

/-- The last character of a text is the last one behind a cut, unless the cut is at the end. -/
theorem Scans.right_eq {c : Cut} {a : Char} (hscan : Scans t (c.before.reverse ++ c.mark :: c.after))
    (hlast : t.getLast? = some a) (hc : c.mark.char ≠ a) : c.right = c.right.dropLast ++ [a] := by
  have htext : t = c.left ++ c.mark.char :: c.right := by
    rw [← hscan.textOf_eq, textOf_append]
    rfl
  rcases List.eq_nil_or_concat c.right with hnil | ⟨y, d, hd⟩
  · rw [htext, hnil, List.getLast?_concat] at hlast
    exact absurd (Option.some.inj hlast) hc
  · rw [List.concat_eq_append] at hd
    rw [htext, hd, ← List.cons_append, ← List.append_assoc, List.getLast?_concat] at hlast
    rw [hd, List.dropLast_concat, Option.some.inj hlast]

/-- An index stands in brackets behind its target. -/
theorem covers_splitIndexed (h : splitIndexed t = .ok s) : s.Covers t := by
  rw [splitIndexed_eq_ok_iff] at h
  split at h
  · next hlast =>
    obtain ⟨ms, hscan, ⟨-, rfl⟩ | ⟨c, hsome, -, wrapped, -, rfl⟩⟩ := h
    · exact Step.covers_same .of_trim
    · obtain ⟨rfl, hc, -⟩ := lastCut_eq_some_iff.1 hsome
      have hchar : c.mark.char = '[' := List.mem_singleton.1 (Cut.isTop_iff.1 hc).2
      have htext : Text.trim t = c.left ++ '[' :: c.right := by
        rw [← hscan.textOf_eq, textOf_append, ← hchar]
        rfl
      have hright : c.right = c.right.dropLast ++ [']'] :=
        hscan.right_eq hlast (by rw [hchar]; decide)
      have hwhole : Whole (Text.trim c.left) → Whole c.right.dropLast → Whole t := by
        intro htarget hindex
        refine .of_trim ?_
        rw [htext, hright]
        exact (Whole.of_trim htarget).append hindex.brackets
      cases wrapped with
      | true => exact Step.covers_index hwhole
      | false => exact Step.covers_index hwhole
  · rw [h]
    exact Step.covers_same .of_trim

end Operators

/-! ## Single operands -/

section Operands

variable {t : List Char} {s : Step}

theorem covers_splitReference (hhead : t.head? = some '$') (h : splitReference t = .ok s) :
    s.Covers t := by
  obtain ⟨u, rfl, hbalanced, -⟩ := exists_reference_of_splitReference hhead h
  exact fun _ => (Spelled.column hbalanced).whole

theorem covers_splitText {q : Char} (hq : q = '"' ∨ q = '\'') (hhead : t.head? = some q)
    (h : splitText q t = .ok s) : s.Covers t := by
  obtain ⟨x, v, rfl, hx, -⟩ := (splitText_eq_ok_iff_escaped hq hhead).1 h
  exact fun _ => (Spelled.literal hq hx).whole

/-- Texts in parentheses begin and end with them. -/
theorem eq_of_isWrapped (h : isWrapped t = .ok true) : ∃ x, t = '(' :: x ++ [')'] := by
  rw [isWrapped_eq_ok_iff] at h
  split at h
  · next hends =>
    obtain ⟨x, rfl⟩ := List.head?_eq_some_iff.1 hends.1
    rcases List.eq_nil_or_concat x with rfl | ⟨y, c, rfl⟩
    · cases hends.2
    · have hlast := hends.2
      rw [List.concat_eq_append, ← List.cons_append, List.getLast?_concat] at hlast
      exact ⟨y, by rw [Option.some.inj hlast, List.concat_eq_append, List.cons_append]⟩
  · cases h

theorem commaPieces_ne_nil (current : List Char) (ms : List Mark) : commaPieces current ms ≠ [] := by
  induction ms generalizing current with
  | nil => exact List.cons_ne_nil _ _
  | cons m ms ih =>
      rw [commaPieces]
      split
      · exact List.cons_ne_nil _ _
      · exact ih _

/-- With the commas between them the arguments of a call are what stands in its parentheses. -/
theorem join_commaPieces (current : List Char) (ms : List Mark) :
    Text.join [','] (commaPieces current ms) = current.reverse ++ textOf ms := by
  induction ms generalizing current with
  | nil => exact (List.append_nil _).symm
  | cons m ms ih =>
      rw [commaPieces]
      split
      · next hcomma =>
        have hm : m.char = ',' := by simpa using (Bool.and_eq_true_iff.1 hcomma).2
        obtain ⟨x, xs, hpieces⟩ := List.exists_cons_of_ne_nil (commaPieces_ne_nil [] ms)
        have hjoin := ih []
        rw [hpieces] at hjoin ⊢
        rw [Text.join_cons_cons, hjoin, ← hm, List.append_assoc]
        rfl
      · rw [ih, List.reverse_cons, List.append_assoc]
        rfl

theorem nested_of_argumentPieces {ps : List Piece} (h : argumentPieces t = .ok ps)
    (hps : ∀ q ∈ ps, Whole q.text) : Nested t := by
  rw [argumentPieces_eq_ok_iff] at h
  split at h
  · next hblank =>
    exact (Whole.of_blanks (Text.trim_eq_nil_iff.1 hblank)).nested
  · obtain ⟨ms, hscan, rfl⟩ := h
    have hjoin : Text.join [','] (commaPieces [] ms) = t := by
      rw [join_commaPieces, hscan.textOf_eq]
      rfl
    have hnested := @Nested.join [','] (commaPieces [] ms) (by decide)
      fun x hx => (hps ⟨.expression, x⟩ (List.mem_map_of_mem hx)).nested
    rwa [hjoin] at hnested

theorem covers_splitCall (h : splitCall t = .ok s) : s.Covers t := by
  simp only [splitCall] at h
  split at h
  · next hname =>
    obtain ⟨-, hident⟩ := Bool.and_eq_true_iff.1 hname
    split at h
    · cases h
    · next hwrapped =>
      split at h
      · cases h
      · next pieces hargs =>
        rw [← Except.ok.inj h]
        intro hpieces
        obtain ⟨x, hx⟩ := eq_of_isWrapped hwrapped
        rw [hx, List.cons_append, inside_cons_append] at hargs
        have hfront : Whole (t.takeWhile (· != '(')) := .of_trim (.of_identChars
          (List.all_eq_true.1 (Bool.and_eq_true_iff.1 hident).2))
        have hcall := hfront.append (.parentheses (nested_of_argumentPieces hargs hpieces))
        rwa [← hx, List.takeWhile_append_dropWhile] at hcall
    · cases h
  · cases h

theorem covers_splitWord (h : splitWord t = .ok s) : s.Covers t := by
  have hword : ∀ {w : List Char}, (∀ c ∈ w, isIdentChar c = true) → t = w → s.Covers t := by
    rintro w hw rfl
    exact fun _ => .of_identChars hw
  unfold splitWord at h
  split at h
  · next ht => exact hword (by decide) ht
  · split at h
    · next ht => exact hword (by decide) ht
    · split at h
      · next ht => exact ht.elim (hword (by decide)) (hword (by decide))
      · split at h
        · next hhead =>
          split at h
          · next hread =>
            intro _
            refine .of_ordinary fun c hc => ?_
            have hchar := isNumberChar_of_read? hread hhead hc
            refine ⟨hchar.ordinary, ?_⟩
            rintro rfl
            exact hchar.notMem (l := [',']) (by decide) (List.mem_singleton.2 rfl)
          · cases h
        · exact covers_splitCall h

theorem covers_splitPrimary (h : splitPrimary t = .ok s) : s.Covers t := by
  have htrim : s.Covers (Text.trim t) → s.Covers t := fun hs hpieces => .of_trim (hs hpieces)
  simp only [splitPrimary] at h
  split at h
  · cases h
  · next hhead => exact htrim (covers_splitReference hhead h)
  · next c hhead =>
    split at h
    · cases h
    · next hwrapped =>
      obtain ⟨x, hx⟩ := eq_of_isWrapped hwrapped
      rw [← Except.ok.inj h]
      refine Step.covers_single fun hinner => .of_trim ?_
      rw [hx, List.cons_append, inside_cons_append] at hinner
      rw [hx]
      exact .parentheses hinner.nested
    · split at h
      · next hq => exact htrim (covers_splitText hq hhead h)
      · exact htrim (covers_splitWord h)

end Operands

/-! ## The reader -/

theorem covers_split {l : Level} {t : List Char} {s : Step} (h : split l t = .ok s) :
    s.Covers t := by
  cases l with
  | expression => exact covers_splitExpression h
  | disjunction => exact covers_splitKeyword (by decide) h
  | conjunction => exact covers_splitKeyword (by decide) h
  | comparison => exact covers_splitComparison h
  | sum => exact covers_splitSum h
  | product => exact covers_splitProduct h
  | unary => exact covers_splitUnary h
  | power => exact covers_splitPower h
  | indexed => exact covers_splitIndexed h
  | primary => exact covers_splitPrimary h

/-- Whatever can be read is whole. -/
theorem whole_of_parseAt {p : Piece} {a : Ast} (h : parseAt p = .ok a) : Whole p.text := by
  induction hw : p.weight using Nat.strongRecOn generalizing p a with
  | ind w ih =>
      obtain ⟨s, hsplit, htree⟩ := split_of_parseAt h
      refine covers_split hsplit fun q hq => ?_
      obtain ⟨b, hb⟩ := Step.exists_tree_of_mem htree hq
      exact ih q.weight (hw ▸ split_weight hsplit q hq) hb rfl

end ColumnTree.Formula
