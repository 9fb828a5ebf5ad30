/-
# From a formula to its tree

`parseAt` follows the cuts of the grammar.  It ends because every piece weighs less than the text
it was cut from (`split_weight`): it is shorter, or as long and at a tighter level.
-/
import ColumnTree.Formula.Grammar

namespace ColumnTree.Formula

/-! ## Lengths -/

theorem length_scanFrom {s : ScanState} {offset : Nat} {text : List Char} {marks : List Mark}
    (h : scanFrom s offset text = .ok marks) : marks.length = text.length := by
  induction text generalizing s offset marks with
  | nil =>
    simp only [scanFrom] at h
    cases hf : s.finish with
    | error e => simp [hf, bind, Except.bind] at h
    | ok u =>
      simp [hf, bind, Except.bind, pure, Except.pure] at h
      simp [← h]
  | cons c rest ih =>
    simp only [scanFrom] at h
    cases hs : s.step offset c with
    | error e => simp [hs, bind, Except.bind] at h
    | ok r =>
      cases hr : scanFrom r.1 (offset + c.utf8Size) rest with
      | error e => simp [hs, hr, bind, Except.bind] at h
      | ok ms =>
        simp [hs, hr, bind, Except.bind, pure, Except.pure] at h
        simp [← h, ih hr]

/-- Scanning marks every character. -/
theorem length_scan {text : List Char} {marks : List Mark} (h : scan text = .ok marks) :
    marks.length = text.length :=
  length_scanFrom h

theorem length_of_mem_cutsFrom {before marks : List Mark} {c : Cut}
    (h : c ∈ cutsFrom before marks) :
    c.before.length + 1 + c.after.length = before.length + marks.length := by
  induction marks generalizing before with
  | nil => simp [cutsFrom] at h
  | cons m rest ih =>
    simp only [cutsFrom, List.mem_cons] at h
    rcases h with rfl | h
    · simp only [List.length_cons]; omega
    · have := ih h
      simp only [List.length_cons] at this ⊢
      omega

/-- A cut takes one mark out of the list. -/
theorem length_of_mem_cuts {marks : List Mark} {c : Cut} (h : c ∈ cuts marks) :
    c.before.length + 1 + c.after.length = marks.length := by
  simpa using length_of_mem_cutsFrom h

theorem length_of_firstCut {p : Cut → Bool} {marks : List Mark} {c : Cut}
    (h : firstCut p marks = some c) : c.before.length + 1 + c.after.length = marks.length :=
  length_of_mem_cuts (List.mem_of_find?_eq_some h)

theorem length_of_lastCut {p : Cut → Bool} {marks : List Mark} {c : Cut}
    (h : lastCut p marks = some c) : c.before.length + 1 + c.after.length = marks.length :=
  length_of_mem_cuts (List.mem_reverse.1 (List.mem_of_find?_eq_some h))

theorem length_textOf (marks : List Mark) : (textOf marks).length = marks.length :=
  List.length_map ..

theorem Cut.length_left (c : Cut) : c.left.length = c.before.length := by
  simp [Cut.left, length_textOf]

theorem Cut.length_right (c : Cut) : c.right.length = c.after.length :=
  length_textOf _

theorem length_afterWord {word : List Char} {marks rest : List Mark}
    (h : afterWord word marks = some rest) : rest.length + word.length = marks.length := by
  induction word generalizing marks with
  | nil => simp [afterWord] at h; simp [h]
  | cons c cs ih =>
    cases marks with
    | nil => simp [afterWord] at h
    | cons m ms =>
      simp only [afterWord] at h
      split at h
      · have := ih h
        simp only [List.length_cons]; omega
      · simp at h

theorem length_afterKeyword {c : Cut} {word : List Char} {rest : List Mark}
    (h : c.afterKeyword? word = some rest) : rest.length + word.length = c.after.length + 1 := by
  unfold Cut.afterKeyword? at h
  split at h
  · obtain ⟨h₁, -⟩ := Option.filter_eq_some_iff.1 h
    simpa using length_afterWord h₁
  · simp at h

theorem length_comparison {c : Cut} {tag : Tag} {rest : List Mark}
    (h : c.comparison? = some (tag, rest)) : rest.length ≤ c.after.length := by
  unfold Cut.comparison? at h
  repeat' split at h
  all_goals simp_all

theorem length_inside (t : List Char) : (inside t).length = t.length - 2 := by
  simp [inside]; omega

theorem length_of_mem_commaPieces {current : List Char} {marks : List Mark} {s : List Char}
    (h : s ∈ commaPieces current marks) : s.length ≤ current.length + marks.length := by
  induction marks generalizing current with
  | nil => simp [commaPieces] at h; simp [h]
  | cons m rest ih =>
    simp only [commaPieces] at h
    split at h
    · rcases List.mem_cons.1 h with rfl | h
      · simp
      · have := ih h
        simp only [List.length_cons, List.length_nil] at this ⊢; omega
    · have := ih h
      simp only [List.length_cons] at this ⊢; omega

theorem length_of_mem_argumentPieces {t : List Char} {pieces : List Piece} {p : Piece}
    (h : argumentPieces t = .ok pieces) (hp : p ∈ pieces) : p.text.length ≤ t.length := by
  unfold argumentPieces at h
  split at h
  · simp only [Except.ok.injEq] at h; subst h; simp at hp
  · split at h
    · simp at h
    · next marks hm =>
      simp only [Except.ok.injEq] at h; subst h
      obtain ⟨s, hs, rfl⟩ := List.mem_map.1 hp
      have := length_of_mem_commaPieces hs
      simpa [length_scan hm] using this

/-! ## Every piece weighs less -/

theorem weight_lt_of_length_lt {p q : Piece} (h : p.text.length < q.text.length) :
    p.weight < q.weight := by
  have : p.level.rank < 10 := by cases p.level <;> decide
  simp only [Piece.weight]; omega

theorem weight_lt_of_rank_lt {p q : Piece} (h : p.text.length ≤ q.text.length)
    (hr : p.level.rank < q.level.rank) : p.weight < q.weight := by
  simp only [Piece.weight]; omega

/-- The operands that `twoOperands` gives are those it was given, trimmed. -/
theorem length_of_twoOperands {fault : SyntaxFault} {tag : Tag} {l r : Level}
    {left right : List Char} {s : Step} (h : twoOperands fault tag l r left right = .ok s)
    {p : Piece} (hp : p ∈ s.pieces) :
    p.text.length ≤ left.length ∨ p.text.length ≤ right.length := by
  unfold twoOperands at h
  split at h
  · simp at h
  · simp only [Except.ok.injEq] at h; subst h
    simp only [Step.pieces, List.mem_cons, List.not_mem_nil, or_false] at hp
    rcases hp with rfl | rfl
    · exact .inl (Text.length_trim_le _)
    · exact .inr (Text.length_trim_le _)

theorem splitKeyword_weight {word : String} {tag : Tag} {this next : Level} {t : List Char}
    {s : Step} (hw : 0 < word.toList.length) (hr : next.rank < this.rank)
    (h : splitKeyword word tag this next t = .ok s) :
    ∀ p ∈ s.pieces, p.weight < (⟨this, t⟩ : Piece).weight := by
  intro p hp
  unfold splitKeyword at h
  split at h
  · simp at h
  · next marks hm =>
    split at h
    · simp only [Except.ok.injEq] at h; subst h
      simp only [Step.pieces, List.mem_singleton] at hp; subst hp
      exact weight_lt_of_rank_lt (Nat.le_refl _) hr
    · next c hc =>
      have hl := length_of_lastCut hc
      have hs := length_scan hm
      have hk : (c.afterKeyword? word.toList).isSome := by
        have := List.find?_some hc
        exact this
      obtain ⟨rest, hrest⟩ := Option.isSome_iff_exists.1 hk
      have ha := length_afterKeyword hrest
      have := length_of_twoOperands h hp
      rw [hrest] at this
      simp only [Cut.length_left, Option.getD_some, length_textOf] at this
      apply weight_lt_of_length_lt
      show p.text.length < t.length
      omega

theorem splitComparison_weight {t : List Char} {s : Step} (h : splitComparison t = .ok s) :
    ∀ p ∈ s.pieces, p.weight < (⟨.comparison, t⟩ : Piece).weight := by
  intro p hp
  unfold splitComparison at h
  split at h
  · simp at h
  · next marks hm =>
    split at h
    · simp only [Except.ok.injEq] at h; subst h
      simp only [Step.pieces, List.mem_singleton] at hp; subst hp
      exact weight_lt_of_rank_lt (Nat.le_refl _) (by simp [Level.rank])
    · next c hc =>
      split at h
      · simp at h
      · next tag rest hcmp =>
        have hl := length_of_firstCut hc
        have hs := length_scan hm
        have hr := length_comparison hcmp
        have := length_of_twoOperands h hp
        simp only [Cut.length_left, length_textOf] at this
        apply weight_lt_of_length_lt
        show p.text.length < t.length
        omega

theorem splitSum_weight {t : List Char} {s : Step} (h : splitSum t = .ok s) :
    ∀ p ∈ s.pieces, p.weight < (⟨.sum, t⟩ : Piece).weight := by
  intro p hp
  unfold splitSum at h
  split at h
  · simp at h
  · next marks hm =>
    split at h
    · simp only [Except.ok.injEq] at h; subst h
      simp only [Step.pieces, List.mem_singleton] at hp; subst hp
      exact weight_lt_of_rank_lt (Nat.le_refl _) (by simp [Level.rank])
    · next c hc =>
      split at h
      · simp at h
      · simp only [Except.ok.injEq] at h; subst h
        have hl := length_of_lastCut hc
        have hs := length_scan hm
        have h₁ := Text.length_trim_le c.left
        have h₂ := Text.length_trim_le c.right
        rw [Cut.length_left] at h₁
        rw [Cut.length_right] at h₂
        simp only [Step.pieces, List.mem_cons, List.not_mem_nil, or_false] at hp
        rcases hp with rfl | rfl
        · exact weight_lt_of_length_lt (by show (Text.trim c.left).length < t.length; omega)
        · exact weight_lt_of_length_lt (by show (Text.trim c.right).length < t.length; omega)

theorem splitProduct_weight {t : List Char} {s : Step} (h : splitProduct t = .ok s) :
    ∀ p ∈ s.pieces, p.weight < (⟨.product, t⟩ : Piece).weight := by
  intro p hp
  unfold splitProduct at h
  split at h
  · simp at h
  · next marks hm =>
    split at h
    · simp only [Except.ok.injEq] at h; subst h
      simp only [Step.pieces, List.mem_singleton] at hp; subst hp
      exact weight_lt_of_rank_lt (Nat.le_refl _) (by simp [Level.rank])
    · next c hc =>
      have hl := length_of_lastCut hc
      have hs := length_scan hm
      have := length_of_twoOperands h hp
      simp only [Cut.length_left, Cut.length_right] at this
      apply weight_lt_of_length_lt
      show p.text.length < t.length
      omega

theorem splitUnary_weight {t : List Char} {s : Step} (h : splitUnary t = .ok s) :
    ∀ p ∈ s.pieces, p.weight < (⟨.unary, t⟩ : Piece).weight := by
  intro p hp
  have ht := Text.length_trim_le t
  unfold splitUnary at h
  split at h
  · next rest hrest =>
    rw [hrest] at ht
    split at h
    · simp at h
    · simp only [Except.ok.injEq] at h; subst h
      simp only [Step.pieces, List.mem_singleton] at hp; subst hp
      exact weight_lt_of_length_lt ht
  · next rest hrest =>
    rw [hrest] at ht
    simp only [Except.ok.injEq] at h; subst h
    simp only [Step.pieces, List.mem_singleton] at hp; subst hp
    exact weight_lt_of_length_lt ht
  · simp only [Except.ok.injEq] at h; subst h
    simp only [Step.pieces, List.mem_singleton] at hp; subst hp
    exact weight_lt_of_rank_lt ht (by simp [Level.rank])

theorem splitPower_weight {t : List Char} {s : Step} (h : splitPower t = .ok s) :
    ∀ p ∈ s.pieces, p.weight < (⟨.power, t⟩ : Piece).weight := by
  intro p hp
  unfold splitPower at h
  split at h
  · simp at h
  · next marks hm =>
    split at h
    · simp only [Except.ok.injEq] at h; subst h
      simp only [Step.pieces, List.mem_singleton] at hp; subst hp
      exact weight_lt_of_rank_lt (Nat.le_refl _) (by simp [Level.rank])
    · next c hc =>
      have hl := length_of_firstCut hc
      have hs := length_scan hm
      have := length_of_twoOperands h hp
      simp only [Cut.length_left, length_textOf, List.length_drop] at this
      apply weight_lt_of_length_lt
      show p.text.length < t.length
      omega

theorem splitIndexed_weight {t : List Char} {s : Step} (h : splitIndexed t = .ok s) :
    ∀ p ∈ s.pieces, p.weight < (⟨.indexed, t⟩ : Piece).weight := by
  intro p hp
  have ht := Text.length_trim_le t
  simp only [splitIndexed] at h
  split at h
  · split at h
    · simp at h
    · next marks hm =>
      have hs := length_scan hm
      split at h
      · simp only [Except.ok.injEq] at h; subst h
        simp only [Step.pieces, List.mem_singleton] at hp; subst hp
        exact weight_lt_of_rank_lt ht (by simp [Level.rank])
      · next c hc =>
        have hl := length_of_lastCut hc
        have h₁ := Text.length_trim_le c.left
        rw [Cut.length_left] at h₁
        have h₂ : c.right.dropLast.length ≤ c.after.length := by
          simp [Cut.length_right]
        split at h
        · simp at h
        · split at h
          · simp at h
          all_goals
            simp only [Except.ok.injEq] at h; subst h
            simp only [Step.pieces, List.mem_cons, List.not_mem_nil, or_false] at hp
            rcases hp with rfl | rfl
            · exact weight_lt_of_length_lt (by show c.right.dropLast.length < t.length; omega)
            · exact weight_lt_of_length_lt (by show (Text.trim c.left).length < t.length; omega)
  · simp only [Except.ok.injEq] at h; subst h
    simp only [Step.pieces, List.mem_singleton] at hp; subst hp
    exact weight_lt_of_rank_lt ht (by simp [Level.rank])

theorem pieces_splitReference {t : List Char} {s : Step} (h : splitReference t = .ok s) :
    s.pieces = [] := by
  simp only [splitReference] at h
  split at h
  · simp at h
  · split at h
    · split at h
      · simp at h
      · simp only [Except.ok.injEq] at h; subst h; rfl
    · simp at h

theorem pieces_splitText {q : Char} {t : List Char} {s : Step} (h : splitText q t = .ok s) :
    s.pieces = [] := by
  simp only [splitText] at h
  split at h
  · simp at h
  · split at h
    · simp only [Except.ok.injEq] at h; subst h; rfl
    · simp at h

theorem length_of_mem_splitCall {t : List Char} {s : Step} (h : splitCall t = .ok s)
    {p : Piece} (hp : p ∈ s.pieces) : p.text.length < t.length := by
  have hc := (List.dropWhile_sublist (l := t) (· != '(')).length_le
  simp only [splitCall] at h
  split at h
  · next hname =>
    split at h
    · simp at h
    · split at h
      · simp at h
      · next pieces hargs =>
        simp only [Except.ok.injEq] at h; subst h
        have hle := length_of_mem_argumentPieces hargs hp
        rw [length_inside] at hle
        have hne : t.dropWhile (· != '(') ≠ [] := by
          intro he
          simp [he] at hname
        have := List.length_pos_iff.2 hne
        omega
    · simp at h
  · simp at h

theorem length_of_mem_splitWord {t : List Char} {s : Step} (h : splitWord t = .ok s)
    {p : Piece} (hp : p ∈ s.pieces) : p.text.length < t.length := by
  unfold splitWord at h
  split at h
  · simp only [Except.ok.injEq] at h; subst h; simp [Step.pieces] at hp
  · split at h
    · simp only [Except.ok.injEq] at h; subst h; simp [Step.pieces] at hp
    · split at h
      · simp only [Except.ok.injEq] at h; subst h; simp [Step.pieces] at hp
      · split at h
        · split at h
          · simp only [Except.ok.injEq] at h; subst h; simp [Step.pieces] at hp
          · simp at h
        · exact length_of_mem_splitCall h hp

theorem splitPrimary_weight {t : List Char} {s : Step} (h : splitPrimary t = .ok s) :
    ∀ p ∈ s.pieces, p.weight < (⟨.primary, t⟩ : Piece).weight := by
  intro p hp
  have ht := Text.length_trim_le t
  simp only [splitPrimary] at h
  split at h
  · simp at h
  · simp [pieces_splitReference h] at hp
  · next c hhead =>
    have hpos : 0 < (Text.trim t).length := by
      apply List.length_pos_iff.2
      intro he
      simp [he] at hhead
    split at h
    · simp at h
    · simp only [Except.ok.injEq] at h; subst h
      simp only [Step.pieces, List.mem_singleton] at hp; subst hp
      refine weight_lt_of_length_lt ?_
      show (inside (Text.trim t)).length < t.length
      rw [length_inside]; omega
    · split at h
      · simp [pieces_splitText h] at hp
      · have := length_of_mem_splitWord h hp
        exact weight_lt_of_length_lt (by show p.text.length < t.length; omega)

theorem splitExpression_weight {t : List Char} {s : Step} (h : splitExpression t = .ok s) :
    ∀ p ∈ s.pieces, p.weight < (⟨.expression, t⟩ : Piece).weight := by
  intro p hp
  unfold splitExpression at h
  split at h
  · simp at h
  · simp only [Except.ok.injEq] at h; subst h
    simp only [Step.pieces, List.mem_singleton] at hp; subst hp
    exact weight_lt_of_rank_lt (Text.length_trim_le t) (by simp [Level.rank])

/-- Every piece of a step weighs less than the text it was cut from. -/
theorem split_weight {l : Level} {t : List Char} {s : Step} (h : split l t = .ok s) :
    ∀ p ∈ s.pieces, p.weight < (⟨l, t⟩ : Piece).weight := by
  cases l with
  | expression => exact splitExpression_weight h
  | disjunction => exact splitKeyword_weight (by decide) (by decide) h
  | conjunction => exact splitKeyword_weight (by decide) (by decide) h
  | comparison => exact splitComparison_weight h
  | sum => exact splitSum_weight h
  | product => exact splitProduct_weight h
  | unary => exact splitUnary_weight h
  | power => exact splitPower_weight h
  | indexed => exact splitIndexed_weight h
  | primary => exact splitPrimary_weight h

/-! ## The reader -/

/-- The tree of a piece. -/
def parseAt (p : Piece) : Except SyntaxFault Ast :=
  match h : split p.level p.text with
  | .error e => .error e
  | .ok (.done a) => .ok a
  | .ok (.same q) =>
    have := split_weight h q (by simp [Step.pieces])
    parseAt q
  | .ok (.node tag head pieces) => do
    let children ← pieces.attach.mapM fun ⟨q, hq⟩ =>
      have := split_weight h q (by simpa [Step.pieces] using hq)
      parseAt q
    return .node tag (head.map .token ++ children)
  | .ok (.index tag target index) => do
    have h₁ := split_weight h index (by simp [Step.pieces])
    have h₂ := split_weight h target (by simp [Step.pieces])
    let i ← parseAt index
    let t ← parseAt target
    return .node tag [t, i]
termination_by p.weight

/-- The tree of a formula. -/
def parse (text : String) : Except SyntaxFault Ast :=
  parseAt ⟨.expression, text.toList⟩

end ColumnTree.Formula
