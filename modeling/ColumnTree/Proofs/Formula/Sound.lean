/-
# Only trees of the grammar are read

A step of the reader `Keeps` the grammar if its pieces are sifted and a tree of the right level comes
out whenever trees of the right levels come out of the pieces.  Every step of every level does, and so
by induction on the weight does the reader (`shaped_of_parseAt`).
-/
import ColumnTree.Proofs.Formula.Leaves
import ColumnTree.Proofs.Formula.Number
import ColumnTree.Proofs.Formula.Sifted

namespace ColumnTree.Formula

/-- A step that leads to trees of a level. -/
structure Step.Keeps (l : Level) (s : Step) : Prop where
  sifted : ∀ q ∈ s.pieces, Sifted q
  shaped : (∀ q ∈ s.pieces, ∀ a, parseAt q = .ok a → Shaped q.level a) →
    ∀ a, s.tree = .ok a → Shaped l a

theorem sifted_of_rank {l : Level} {t : List Char} (h : Level.disjunction.rank ≤ l.rank) :
    Sifted ⟨l, t⟩ :=
  fun hlt => absurd hlt (Nat.not_lt.2 h)

namespace Step

variable {l m : Level} {t x y : List Char}

theorem keeps_done {a : Ast} (h : Shaped l a) : Keeps l (.done a) := by
  refine ⟨fun q hq => (nomatch hq), fun _ b hb => ?_⟩
  rw [← Except.ok.inj hb]
  exact h

theorem keeps_same {q : Piece} (hq : Sifted q) (h : ∀ a, Shaped q.level a → Shaped l a) :
    Keeps l (.same q) := by
  constructor
  · intro q' hq'
    rwa [List.mem_singleton.1 hq']
  · exact fun hpieces a ha => h a (hpieces q (List.mem_singleton.2 rfl) a ha)

theorem keeps_tighter (hq : Sifted ⟨m, t⟩) (h : l.tighter? = some m) : Keeps l (.same ⟨m, t⟩) :=
  keeps_same hq fun _ => .loosen h

/-- A node with one operand. -/
theorem keeps_single {tag : Tag} {q : Piece} (hq : Sifted q)
    (h : ∀ a, Shaped q.level a → Shaped l (.node tag [a])) : Keeps l (.node tag [] [q]) := by
  constructor
  · intro q' hq'
    rwa [List.mem_singleton.1 hq']
  · intro hpieces a ha
    obtain ⟨b, hb, rfl⟩ := tree_single_eq_ok_iff.1 ha
    exact h b (hpieces q (List.mem_singleton.2 rfl) b hb)

/-- An index on a target. -/
theorem keeps_index {tag : Tag} {p q : Piece} (hp : Sifted p) (hq : Sifted q)
    (h : ∀ a k, parseAt p = .ok a → Shaped p.level a → Shaped q.level k →
      Shaped l (.node tag [a, k])) : Keeps l (.index tag p q) := by
  constructor
  · intro r hr
    simp only [pieces, List.mem_cons, List.not_mem_nil, or_false] at hr
    rcases hr with rfl | rfl
    · exact hq
    · exact hp
  · intro hpieces b hb
    obtain ⟨a, k, ha, hk, rfl⟩ := tree_index_eq_ok_iff.1 hb
    exact h a k ha (hpieces p (by simp [pieces]) a ha) (hpieces q (by simp [pieces]) k hk)

/-- An operator between two operands. -/
theorem keeps_binary {tag : Tag} {left right : Level} (htag : tag.levels? = some (l, left, right))
    (hx : Sifted ⟨left, x⟩) (hy : Sifted ⟨right, y⟩) :
    Keeps l (.node tag [] [⟨left, x⟩, ⟨right, y⟩]) := by
  constructor
  · intro q hq
    simp only [pieces, List.mem_cons, List.not_mem_nil, or_false] at hq
    rcases hq with rfl | rfl
    · exact hx
    · exact hy
  · intro hpieces a ha
    obtain ⟨b, c, hb, hc, rfl⟩ := tree_double_eq_ok_iff.1 ha
    exact .binary htag (hpieces _ (by simp [pieces]) b hb) (hpieces _ (by simp [pieces]) c hc)

end Step

/-! ## Operators -/

section Operators

variable {t : List Char} {s : Step}

theorem keeps_splitExpression (h : splitExpression t = .ok s) : s.Keeps .expression := by
  unfold splitExpression at h
  split at h
  · cases h
  · rw [← Except.ok.inj h]
    exact Step.keeps_tighter (sifted_of_rank (Nat.le_refl _)) rfl

theorem keeps_splitKeyword {word : String} {tag : Tag} {this next : Level}
    (hcut : this.isCut = (·.hasKeyword word.toList))
    (hword : word.toList ≠ [] ∧ ∀ c ∈ word.toList, isIdentChar c = true)
    (htag : tag.levels? = some (this, this, next)) (htighter : this.tighter? = some next)
    (hher : ∀ l ∈ heritable, next.rank < l.rank → this.rank < l.rank ∨ l = this)
    (hs : Sifted ⟨this, t⟩) (h : splitKeyword word tag this next t = .ok s) : s.Keeps this := by
  obtain ⟨ms, hscan, ⟨hnone, rfl⟩ | ⟨c, hsome, hop⟩⟩ := splitKeyword_eq_ok_iff.1 h
  · refine Step.keeps_tighter (hs.tighten hscan fun l hl hrank => ?_) htighter
    refine (hher l hl hrank).imp_right ?_
    rintro rfl
    rw [hcut]
    exact lastCut_eq_none_iff.1 hnone
  · obtain ⟨rfl, hc, hclear⟩ := lastCut_eq_some_iff.1 hsome
    obtain ⟨rest, hrest⟩ := Option.isSome_iff_exists.1 hc
    obtain ⟨htop, hbefore, ⟨ws, hws, hchars⟩, hafter⟩ := Cut.afterKeyword?_eq_some_iff.1 hrest
    rw [hrest] at hop
    obtain ⟨-, -, rfl⟩ := twoOperands_eq_ok_iff.1 hop
    cases ws with
    | nil => exact absurd hchars.symm hword.1
    | cons m w =>
        obtain ⟨hm, hcafter⟩ : c.mark = m ∧ c.after = w ++ rest := List.cons.inj hws
        have hord : ∀ n ∈ m :: w, Ordinary n.char := fun n hn =>
          ordinary_of_isIdentChar (hword.2 _ (by rw [← hchars]; exact List.mem_map_of_mem hn))
        rw [hcafter] at hscan
        refine Step.keeps_binary htag ?_ ?_
        · refine hs.before hscan htop ?_ (seam_of_left ?_) fun l hl hrank => hrank
          · rw [hm]
            exact (hord m (List.mem_cons_self ..)).ne_close
          · rwa [List.getLast?_reverse]
        · refine hs.after hscan htop (by rwa [hm]) (seam_of_right hafter) fun l hl hrank => ?_
          refine (hher l hl hrank).imp_right ?_
          rintro rfl
          rw [hcut, List.reverse_reverse]
          exact hcafter ▸ hclear

/-- An operator that is no word. -/
theorem keeps_operator {l left right : Level} {tag : Tag} {b w r : List Mark} {m : Mark}
    (htag : tag.levels? = some (l, left, right)) (hs : Sifted ⟨l, t⟩)
    (hscan : Scans t (b ++ m :: (w ++ r))) (htop : m.top = true)
    (hchars : ∀ n ∈ m :: w, n.char ∈ operatorChars)
    (hleft : ∀ l' ∈ heritable, left.rank < l'.rank → l.rank < l'.rank)
    (hright : ∀ l' ∈ heritable, right.rank < l'.rank → l.rank < l'.rank ∨
      Clear l'.isCut (m :: b.reverse) (w ++ r) []) :
    (Step.node tag [] [⟨left, Text.trim (textOf b)⟩, ⟨right, Text.trim (textOf r)⟩]).Keeps l := by
  have hord : ∀ n ∈ m :: w, Ordinary n.char := fun n hn =>
    ordinary_of_mem_operatorChars (hchars n hn)
  refine Step.keeps_binary htag ?_ ?_
  · exact hs.before hscan htop (hord m (List.mem_cons_self ..)).ne_close
      (seam_of_right (noIdent_of_mem_operatorChars (hchars m (List.mem_cons_self ..)))) hleft
  · refine hs.after hscan htop hord (seam_of_left ?_) hright
    rw [List.getLast?_eq_some_getLast (List.cons_ne_nil m w)]
    exact noIdent_of_mem_operatorChars (hchars _ (List.getLast_mem _))

theorem comparison?_eq_some {c : Cut} {tag : Tag} {rest : List Mark}
    (h : c.comparison? = some (tag, rest)) : tag.levels? = some (.comparison, .sum, .sum) ∧
      ∃ w, c.after = w ++ rest ∧ ∀ n ∈ w, n.char = '=' := by
  have hlong : ∀ {m : Mark} {ms : List Mark}, m.char = '=' → c.after = m :: ms →
      ∃ w, c.after = w ++ ms ∧ ∀ n ∈ w, n.char = '=' := fun {m ms} hm hafter =>
    ⟨[m], hafter, fun n hn => by rw [List.mem_singleton.1 hn]; exact hm⟩
  have hshort : c.after = rest → ∃ w, c.after = w ++ rest ∧ ∀ n ∈ w, n.char = '=' :=
    fun hafter => ⟨[], hafter, fun n hn => nomatch hn⟩
  unfold Cut.comparison? at h
  repeat' split at h
  all_goals
    first
    | obtain ⟨rfl, rfl⟩ := Prod.mk.inj (Option.some.inj h)
      exact ⟨rfl, by first | exact hlong ‹_› ‹_› | exact hshort ‹_›⟩
    | cases h

theorem keeps_splitComparison (hs : Sifted ⟨.comparison, t⟩) (h : splitComparison t = .ok s) :
    s.Keeps .comparison := by
  obtain ⟨ms, hscan, ⟨-, rfl⟩ | ⟨c, hsome, tag, rest, htag, hop⟩⟩ := splitComparison_eq_ok_iff.1 h
  · exact Step.keeps_tighter (hs.tighten hscan fun l hl hrank => .inl (by revert l; decide)) rfl
  · obtain ⟨rfl, hc, -⟩ := firstCut_eq_some_iff.1 hsome
    obtain ⟨htop, hchar⟩ := Cut.isTop_iff.1 hc
    obtain ⟨hlevels, w, hafter, hw⟩ := comparison?_eq_some htag
    obtain ⟨-, -, rfl⟩ := twoOperands_eq_ok_iff.1 hop
    rw [hafter] at hscan
    refine keeps_operator hlevels hs hscan htop ?_ (by decide) fun l hl hrank =>
      .inl (by revert l; decide)
    intro n hn
    rcases List.mem_cons.1 hn with rfl | hn
    · exact (by decide : ∀ a ∈ ['<', '>', '=', '!'], a ∈ operatorChars) _ hchar
    · rw [hw n hn]
      decide

theorem keeps_splitSum (hs : Sifted ⟨.sum, t⟩) (h : splitSum t = .ok s) : s.Keeps .sum := by
  obtain ⟨ms, hscan, ⟨hnone, rfl⟩ | ⟨c, hsome, -, rfl⟩⟩ := splitSum_eq_ok_iff.1 h
  · have hclear := lastCut_eq_none_iff.1 hnone
    refine Step.keeps_tighter (hs.tighten hscan fun l hl hrank => ?_) rfl
    rcases (by decide : ∀ l ∈ heritable, Level.product.rank < l.rank →
      Level.sum.rank < l.rank ∨ l = .sum) l hl hrank with hlt | rfl
    · exact .inl hlt
    · exact .inr hclear
  · obtain ⟨rfl, hc, hclear⟩ := lastCut_eq_some_iff.1 hsome
    obtain ⟨htop, hchar⟩ := Level.mem_of_isCut (l := .sum) hc
    refine keeps_operator (w := []) (by split <;> rfl) hs hscan htop ?_ (by decide) fun l hl hrank => ?_
    · intro n hn
      rw [List.mem_singleton.1 hn]
      exact (by decide : ∀ a ∈ ['+', '-'], a ∈ operatorChars) _ hchar
    · rcases (by decide : ∀ l ∈ heritable, Level.product.rank < l.rank →
        Level.sum.rank < l.rank ∨ l = .sum) l hl hrank with hlt | rfl
      · exact .inl hlt
      · rw [List.reverse_reverse]
        exact .inr hclear

theorem keeps_splitProduct (hs : Sifted ⟨.product, t⟩) (h : splitProduct t = .ok s) :
    s.Keeps .product := by
  obtain ⟨ms, hscan, ⟨-, rfl⟩ | ⟨c, hsome, hop⟩⟩ := splitProduct_eq_ok_iff.1 h
  · exact Step.keeps_tighter (hs.tighten hscan fun l hl hrank => .inl (by revert l; decide)) rfl
  · obtain ⟨rfl, hc, -⟩ := lastCut_eq_some_iff.1 hsome
    obtain ⟨htop, hchar⟩ := Level.mem_of_isCut (l := .product) hc
    obtain ⟨-, -, rfl⟩ := twoOperands_eq_ok_iff.1 hop
    refine keeps_operator (w := []) (by split <;> rfl) hs hscan htop ?_ (by decide)
      fun l hl hrank => .inl (by revert l; decide)
    intro n hn
    rw [List.mem_singleton.1 hn]
    exact (by decide : ∀ a ∈ ['*', '/'], a ∈ operatorChars) _ hchar

theorem keeps_splitPower (hs : Sifted ⟨.power, t⟩) (h : splitPower t = .ok s) :
    s.Keeps .power := by
  obtain ⟨ms, hscan, ⟨-, rfl⟩ | ⟨c, hsome, hop⟩⟩ := splitPower_eq_ok_iff.1 h
  · exact Step.keeps_tighter (hs.tighten hscan fun l hl hrank => .inl (by revert l; decide)) rfl
  · obtain ⟨rfl, hc, -⟩ := firstCut_eq_some_iff.1 hsome
    obtain ⟨htop, n, hafter, hstars⟩ := Cut.exists_of_isPowerSign hc
    obtain ⟨-, -, rfl⟩ := twoOperands_eq_ok_iff.1 hop
    rw [hafter] at hscan
    refine keeps_operator (w := [n]) rfl hs hscan htop ?_ (by decide)
      fun l hl hrank => .inl (by revert l; decide)
    intro k hk
    rw [hstars k hk]
    decide

/-- What stands behind a sign in front of everything. -/
theorem Sifted.behind_sign {l : Level} {c : Char} {r : List Char} (h : Sifted ⟨l, c :: r⟩)
    (hc : c ∈ operatorChars) : Sifted ⟨l, r⟩ := by
  intro hrank
  obtain ⟨ms, ⟨d, hreads⟩, hclear⟩ := h hrank
  cases hreads with
  | @cons _ _ _ _ top _ ms hstep hrest =>
      rw [ScanState.start, ScanState.step_ordinary (ordinary_of_mem_operatorChars hc)] at hstep
      obtain ⟨rfl, -⟩ := Prod.mk.inj (Except.ok.inj hstep)
      refine ⟨ms, ⟨d, hrest⟩, fun l' hl' hlt => ?_⟩
      have hsign : NoIdent (some (.of c top)) := noIdent_of_mem_operatorChars hc
      exact @clear_part [.of c top] ms [] (seam_of_left hsign) (seam_of_right noIdent_none) l' hl'
        (clear_cons.1 (hclear l' hl' hlt)).2

theorem keeps_splitUnary (hs : Sifted ⟨.unary, t⟩) (h : splitUnary t = .ok s) :
    s.Keeps .unary := by
  have htrim := hs.trim
  unfold splitUnary at h
  split at h
  · next rest hrest =>
    rw [hrest] at htrim
    split at h
    · cases h
    · rw [← Except.ok.inj h]
      exact Step.keeps_single (htrim.behind_sign (by decide)) fun _ => .negation
  · next rest hrest =>
    rw [hrest] at htrim
    rw [← Except.ok.inj h]
    exact Step.keeps_same (htrim.behind_sign (by decide)) fun _ => id
  · rw [← Except.ok.inj h]
    refine Step.keeps_tighter (fun hrank => ?_) rfl
    obtain ⟨ms, hscan, hclear⟩ := htrim (show Level.unary.rank < _ by decide)
    exact ⟨ms, hscan, fun l hl _ => hclear l hl
      ((by decide : ∀ l ∈ heritable, Level.unary.rank < l.rank) l hl)⟩

end Operators

/-! ## Single operands -/

section Operands

variable {t : List Char} {s : Step}

/-- A word that a call begins with stands alone there. -/
theorem name_ne_of_clear {word : List Char} {ms : List Mark} (hscan : Scans t ms)
    (hclear : Clear (·.hasKeyword word) [] ms []) (hne : word ≠ [])
    (hword : ∀ c ∈ word, isIdentChar c = true) :
    Text.trim (t.takeWhile (· != '(')) ≠ word := by
  rintro rfl
  obtain ⟨x, y, heq, hx, hy⟩ := Text.exists_trim (t.takeWhile (· != '('))
  generalize Text.trim (t.takeWhile (· != '(')) = word at *
  have ht : t = x ++ (word ++ (y ++ t.dropWhile (· != '('))) := by
    rw [← List.append_assoc, ← List.append_assoc, ← heq, List.takeWhile_append_dropWhile]
  obtain ⟨d, hreads⟩ := hscan
  rw [ht] at hreads
  obtain ⟨mx, s₁, ms₁, rfl, hmx, hreads⟩ := hreads.cut_text
  obtain ⟨-, rfl⟩ := (Reads.ordinary (fun c hc => ordinary_of_isBlank (hx c hc)) []).unique hmx
  obtain ⟨mw, s₂, mr, rfl, hmw, hmr⟩ := hreads.cut_text
  obtain ⟨rfl, -⟩ :=
    hmw.unique (Reads.ordinary (fun c hc => ordinary_of_isIdentChar (hword c hc)) [])
  obtain ⟨c, w, rfl⟩ := List.exists_cons_of_ne_nil hne
  have hkeyword := hclear mx (.of c true) (w.map (.of · true) ++ mr) (by simp)
  refine Bool.false_ne_true (hkeyword.symm.trans (Cut.hasKeyword_iff.2
    ⟨rfl, ?_, (c :: w).map (.of · true), mr, by simp, hmw.textOf_eq, ?_⟩))
  · rw [List.append_nil, List.head?_reverse]
    by_cases hnil : mx = []
    · rw [hnil]
      exact noIdent_none
    · exact noIdent_last_of_blanks (by rwa [hmx.textOf_eq]) hnil
  · intro a ha
    have hhead := congrArg List.head? hmr.textOf_eq
    rw [textOf, List.head?_map, Option.mem_def.1 ha, Option.map_some] at hhead
    cases y with
    | cons b y =>
        obtain rfl : a.char = b := Option.some.inj hhead
        exact isIdentChar_of_isBlank (hy _ (List.mem_cons_self ..))
    | nil =>
        have hparen := List.head?_dropWhile_not (· != '(') t
        rw [List.nil_append] at hhead
        rw [← hhead] at hparen
        rw [show a.char = '(' by simpa using hparen]
        rfl

theorem level_of_argumentPieces {ps : List Piece} (h : argumentPieces t = .ok ps) :
    ∀ q ∈ ps, q.level = .expression := by
  intro q hq
  have hps := argumentPieces_eq_ok_iff.1 h
  split at hps
  · rw [hps] at hq
    cases hq
  · obtain ⟨ms, -, rfl⟩ := hps
    obtain ⟨_, -, rfl⟩ := List.mem_map.1 hq
    rfl

theorem keeps_splitCall (hs : Sifted ⟨.primary, t⟩) (h : splitCall t = .ok s) :
    s.Keeps .primary := by
  simp only [splitCall] at h
  split at h
  · next hname =>
    obtain ⟨-, hident⟩ := Bool.and_eq_true_iff.1 hname
    split at h
    · cases h
    · split at h
      · cases h
      · next pieces hargs =>
        have hlevel := level_of_argumentPieces hargs
        obtain ⟨ms, hscan, hclear⟩ := hs (show Level.primary.rank < _ by decide)
        have hkeyword := fun l hl => hclear l hl
          ((by decide : ∀ l ∈ heritable, Level.primary.rank < l.rank) l hl)
        rw [← Except.ok.inj h]
        constructor
        · intro q hq
          refine sifted_of_rank ?_
          rw [hlevel q hq]
          decide
        · intro hpieces a ha
          obtain ⟨cs, hcs, rfl⟩ := Step.tree_node_eq_ok_iff.1 ha
          refine .call ⟨?_, ?_, ?_⟩ fun b hb => ?_
          · rwa [String.toList_ofList]
          · rw [String.toList_ofList]
            exact name_ne_of_clear hscan (hkeyword .disjunction (by decide)) (by decide) (by decide)
          · rw [String.toList_ofList]
            exact name_ne_of_clear hscan (hkeyword .conjunction (by decide)) (by decide) (by decide)
          · have hmem : (.ok b : Except SyntaxFault Ast) ∈ pieces.map parseAt := by
              rw [hcs]
              exact List.mem_map_of_mem hb
            obtain ⟨q, hq, hparse⟩ := List.mem_map.1 hmem
            rw [← hlevel q hq]
            exact hpieces q hq b hparse
    · cases h
  · cases h

theorem keeps_splitWord (hs : Sifted ⟨.primary, t⟩) (h : splitWord t = .ok s) :
    s.Keeps .primary := by
  unfold splitWord at h
  split at h
  · rw [← Except.ok.inj h]
    exact Step.keeps_done .trueLiteral
  · split at h
    · rw [← Except.ok.inj h]
      exact Step.keeps_done .falseLiteral
    · split at h
      · rw [← Except.ok.inj h]
        exact Step.keeps_done .euler
      · split at h
        · next hhead =>
          split at h
          · next hread =>
            obtain ⟨ms, hscan, hclear⟩ := hs (show Level.primary.rank < _ by decide)
            rw [← Except.ok.inj h]
            refine Step.keeps_done (.number ?_)
            rw [String.toList_ofList]
            exact isNumber_of_clear hread hhead hscan
              (hclear .sum (by decide) (show Level.primary.rank < _ by decide))
          · cases h
        · exact keeps_splitCall hs h

theorem keeps_splitPrimary (hs : Sifted ⟨.primary, t⟩) (h : splitPrimary t = .ok s) :
    s.Keeps .primary := by
  simp only [splitPrimary] at h
  split at h
  · cases h
  · next hhead =>
    obtain ⟨name, hname, rfl⟩ := exists_of_splitReference hhead h
    exact Step.keeps_done (.column hname)
  · split at h
    · cases h
    · rw [← Except.ok.inj h]
      exact Step.keeps_single (sifted_of_rank (by decide)) fun _ => .parentheses
    · split at h
      · obtain ⟨-, -, -, rfl⟩ := splitText_eq_ok_iff.1 h
        exact Step.keeps_done .text
      · exact keeps_splitWord hs.trim h

/-- Only a text in parentheses is read as parentheses. -/
theorem isWrapped_of_splitPrimary {cs : List Ast} (h : splitPrimary t = .ok s)
    (hs : s.tree = .ok (.node .parentheses cs)) : isWrapped (Text.trim t) = .ok true := by
  have hcall : ∀ {head : List String} {ps : List Piece},
      (Step.node .call head ps).tree ≠ .ok (.node .parentheses cs) := by
    intro head ps heq
    obtain ⟨bs, -, htree⟩ := Step.tree_node_eq_ok_iff.1 heq
    cases htree
  simp only [splitPrimary] at h
  split at h
  · cases h
  · next hhead =>
    obtain ⟨name, -, rfl⟩ := exists_of_splitReference hhead h
    simp [Step.tree, Ast.leaf] at hs
  · split at h
    · cases h
    · assumption
    · split at h
      · obtain ⟨-, -, -, rfl⟩ := splitText_eq_ok_iff.1 h
        simp [Step.tree, Ast.leaf] at hs
      · simp only [splitWord, splitCall] at h
        repeat' split at h
        all_goals
          first
          | cases h; done
          | obtain rfl := Except.ok.inj h
            first
            | exact absurd hs hcall
            | simp [Step.tree, Ast.leaf] at hs

end Operands

/-! ## Indexes -/

section Indexes

variable {t : List Char} {s : Step}

/-- The tree of a target in parentheses is a node of them. -/
theorem exists_of_isWrapped {a : Ast} (h : isWrapped t = .ok true) (ht : Text.trim t = t)
    (hparse : parseAt ⟨.primary, t⟩ = .ok a) (ha : Shaped .primary a) :
    ∃ b, a = .node .parentheses [b] ∧ Shaped .expression b := by
  have hsplit := splitPrimary_of_isWrapped (t := t) (by rwa [ht])
  rw [parseAt_of_split (p := ⟨.primary, t⟩) hsplit] at hparse
  obtain ⟨b, -, rfl⟩ := Step.tree_single_eq_ok_iff.1 hparse
  cases ha with
  | loosen h _ => cases h
  | parentheses hb => exact ⟨b, rfl, hb⟩

/-- The tree of another target is no node of parentheses. -/
theorem ne_parentheses_of_isWrapped {a : Ast} (h : isWrapped t = .ok false) (ht : Text.trim t = t)
    (hparse : parseAt ⟨.indexed, t⟩ = .ok a) (cs : List Ast) : a ≠ .node .parentheses cs := by
  rintro rfl
  have hprimary : parseAt ⟨.primary, t⟩ ≠ .ok (.node .parentheses cs) := by
    intro hp
    obtain ⟨s, hsplit, htree⟩ := split_of_parseAt hp
    have := isWrapped_of_splitPrimary hsplit htree
    rw [show Text.trim (⟨.primary, t⟩ : Piece).text = t from ht, h] at this
    cases this
  have hindex : ∀ {tag : Tag} {p q : Piece}, tag ≠ .parentheses →
      (Step.index tag p q).tree ≠ .ok (.node .parentheses cs) := by
    intro tag p q htag heq
    obtain ⟨b, k, -, -, htree⟩ := Step.tree_index_eq_ok_iff.1 heq
    exact htag (Ast.node.inj htree).1.symm
  obtain ⟨s, hsplit, htree⟩ := split_of_parseAt hparse
  rw [show split Level.indexed t = splitIndexed t from rfl, splitIndexed_eq_ok_iff, ht] at hsplit
  split at hsplit
  · obtain ⟨ms, -, ⟨-, rfl⟩ | ⟨c, -, -, wrapped, -, rfl⟩⟩ := hsplit
    · exact hprimary htree
    · cases wrapped with
      | true => exact hindex (by decide) htree
      | false => exact hindex (by decide) htree
  · rw [hsplit] at htree
    exact hprimary htree

theorem keeps_splitIndexed (hs : Sifted ⟨.indexed, t⟩) (h : splitIndexed t = .ok s) :
    s.Keeps .indexed := by
  have htrim := hs.trim
  have hprimary : Sifted ⟨.primary, Text.trim t⟩ := fun _ => by
    obtain ⟨ms, hscan, hclear⟩ := htrim (show Level.indexed.rank < _ by decide)
    exact ⟨ms, hscan, fun l hl _ => hclear l hl
      ((by decide : ∀ l ∈ heritable, Level.indexed.rank < l.rank) l hl)⟩
  rw [splitIndexed_eq_ok_iff] at h
  split at h
  · obtain ⟨ms, hscan, ⟨-, rfl⟩ | ⟨c, hsome, hne, wrapped, hwrapped, rfl⟩⟩ := h
    · exact Step.keeps_tighter hprimary rfl
    · obtain ⟨rfl, hc, -⟩ := lastCut_eq_some_iff.1 hsome
      obtain ⟨htop, hchar⟩ := Cut.isTop_iff.1 hc
      rw [List.mem_singleton] at hchar
      have hseam : Seam c.before.reverse.getLast? (some c.mark) := seam_of_right fun a ha => by
        rw [← Option.some.inj ha, hchar]
        rfl
      have htarget : ∀ l, (∀ l' ∈ heritable, l.rank < l'.rank → Level.indexed.rank < l'.rank) →
          Sifted ⟨l, Text.trim c.left⟩ := fun l hl =>
        htrim.before hscan htop (by rw [hchar]; decide) hseam hl
      cases wrapped with
      | true =>
          refine Step.keeps_index (htarget .primary (by decide)) (sifted_of_rank (by decide))
            fun a k hparse ha hk => ?_
          obtain ⟨b, rfl, hb⟩ := exists_of_isWrapped hwrapped (Text.trim_trim _) hparse ha
          exact .indexParentheses hb hk
      | false =>
          refine Step.keeps_index (htarget .indexed (by decide)) (sifted_of_rank (by decide))
            fun a k hparse ha hk => ?_
          exact .index ha (ne_parentheses_of_isWrapped hwrapped (Text.trim_trim _) hparse) hk
  · rw [h]
    exact Step.keeps_tighter hprimary rfl

end Indexes

/-! ## The reader -/

theorem keeps_split {l : Level} {t : List Char} {s : Step} (hs : Sifted ⟨l, t⟩)
    (h : split l t = .ok s) : s.Keeps l := by
  cases l with
  | expression => exact keeps_splitExpression h
  | disjunction => exact keeps_splitKeyword rfl (by decide) rfl rfl (by decide) hs h
  | conjunction => exact keeps_splitKeyword rfl (by decide) rfl rfl (by decide) hs h
  | comparison => exact keeps_splitComparison hs h
  | sum => exact keeps_splitSum hs h
  | product => exact keeps_splitProduct hs h
  | unary => exact keeps_splitUnary hs h
  | power => exact keeps_splitPower hs h
  | indexed => exact keeps_splitIndexed hs h
  | primary => exact keeps_splitPrimary hs h

/-- What is read from a sifted piece is a tree of its level. -/
theorem shaped_of_parseAt {p : Piece} {a : Ast} (hs : Sifted p) (h : parseAt p = .ok a) :
    Shaped p.level a := by
  induction hw : p.weight using Nat.strongRecOn generalizing p a with
  | ind w ih =>
      obtain ⟨s, hsplit, htree⟩ := split_of_parseAt h
      have hkeeps := keeps_split hs hsplit
      refine hkeeps.shaped (fun q hq b hb => ?_) a htree
      exact ih q.weight (hw ▸ split_weight hsplit q hq) (hkeeps.sifted q hq) hb rfl

end ColumnTree.Formula
