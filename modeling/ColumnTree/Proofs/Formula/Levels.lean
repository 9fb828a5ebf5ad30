/-
# What each level cuts off

For every level, when it cuts a text and into what pieces, in terms of `Scans` and of the first or
last cut among marks without offsets; and what `parseAt` makes of each kind of step.  Nothing is
said about faults but when there are none.
-/
import ColumnTree.Proofs.Except
import ColumnTree.Proofs.Formula.Clear

namespace ColumnTree.Formula

/-! ## Steps of the reader -/

/-- The tree that a step leads to. -/
def Step.tree : Step → Except SyntaxFault Ast
  | done a => .ok a
  | same q => parseAt q
  | node tag head pieces => pieces.mapM parseAt >>= fun cs => .ok (.node tag (head.map .token ++ cs))
  | index tag p q => parseAt q >>= fun k => parseAt p >>= fun a => .ok (.node tag [a, k])

theorem parseAt_of_split {p : Piece} {s : Step} (h : split p.level p.text = .ok s) :
    parseAt p = s.tree := by
  rw [parseAt]
  split
  case h_1 h' => simp_all
  case h_2 a h' =>
    obtain rfl : s = .done a := Except.ok.inj (h.symm.trans h')
    rfl
  case h_3 q h' =>
    obtain rfl : s = .same q := Except.ok.inj (h.symm.trans h')
    rfl
  case h_4 tag head pieces h' =>
    obtain rfl : s = .node tag head pieces := Except.ok.inj (h.symm.trans h')
    have hattach : (pieces.attach.mapM fun q => parseAt q.1) = pieces.mapM parseAt := by
      rw [List.mapM_subtype (g := parseAt) (by simp), List.unattach_attach]
    exact congrArg (· >>= _) hattach
  case h_5 tag target index h' =>
    obtain rfl : s = .index tag target index := Except.ok.inj (h.symm.trans h')
    rfl

theorem parseAt_of_split_error {p : Piece} {f : SyntaxFault} (h : split p.level p.text = .error f) :
    parseAt p = .error f := by
  rw [parseAt]
  split
  all_goals simp_all

theorem split_of_parseAt {p : Piece} {a : Ast} (h : parseAt p = .ok a) :
    ∃ s, split p.level p.text = .ok s ∧ s.tree = .ok a := by
  cases hs : split p.level p.text with
  | ok s => exact ⟨s, rfl, (parseAt_of_split hs).symm.trans h⟩
  | error e => cases (parseAt_of_split_error hs).symm.trans h

namespace Step

variable {tag : Tag} {a : Ast} {p q : Piece}

/-- The pieces are read one by one, and their trees stand behind the tokens. -/
theorem tree_node_eq_ok_iff {head : List String} {ps : List Piece} :
    (node tag head ps).tree = .ok a ↔
      ∃ cs, ps.map parseAt = cs.map .ok ∧ a = .node tag (head.map .token ++ cs) := by
  rw [tree, bind_eq_ok_iff]
  simp only [mapM_eq_ok_iff, Except.ok.injEq, @eq_comm _ _ a]

theorem tree_single_eq_ok_iff :
    (node tag [] [p]).tree = .ok a ↔ ∃ b, parseAt p = .ok b ∧ a = .node tag [b] := by
  rw [tree_node_eq_ok_iff]
  constructor
  · rintro ⟨cs, hcs, rfl⟩
    obtain ⟨b, bs, rfl, hb, hbs⟩ := List.map_eq_cons_iff.1 hcs.symm
    obtain rfl := List.map_eq_nil_iff.1 hbs
    exact ⟨b, hb.symm, rfl⟩
  · rintro ⟨b, hb, rfl⟩
    exact ⟨[b], by rw [List.map_singleton, hb, List.map_singleton], rfl⟩

theorem tree_double_eq_ok_iff :
    (node tag [] [p, q]).tree = .ok a ↔
      ∃ b c, parseAt p = .ok b ∧ parseAt q = .ok c ∧ a = .node tag [b, c] := by
  rw [tree_node_eq_ok_iff]
  constructor
  · rintro ⟨cs, hcs, rfl⟩
    obtain ⟨b, bs, rfl, hb, hbs⟩ := List.map_eq_cons_iff.1 hcs.symm
    obtain ⟨c, bs, rfl, hc, hbs⟩ := List.map_eq_cons_iff.1 hbs
    obtain rfl := List.map_eq_nil_iff.1 hbs
    exact ⟨b, c, hb.symm, hc.symm, rfl⟩
  · rintro ⟨b, c, hb, hc, rfl⟩
    exact ⟨[b, c], by simp [hb, hc], rfl⟩

theorem tree_index_eq_ok_iff :
    (index tag p q).tree = .ok a ↔
      ∃ b k, parseAt p = .ok b ∧ parseAt q = .ok k ∧ a = .node tag [b, k] := by
  simp only [tree, bind_eq_ok_iff, Except.ok.injEq]
  constructor
  · rintro ⟨k, hk, b, hb, rfl⟩
    exact ⟨b, k, hb, hk, rfl⟩
  · rintro ⟨b, k, hb, hk, rfl⟩
    exact ⟨k, hk, b, hb, rfl⟩

end Step

/-! ## Operators between two operands -/

/-- Does a word stand alone at a cut? -/
def Cut.hasKeyword (word : List Char) (c : Cut) : Bool :=
  (c.afterKeyword? word).isSome

theorem Cut.hasKeyword_unplaced (word : List Char) (c : Cut) :
    c.unplaced.hasKeyword word = c.hasKeyword word := by
  rw [hasKeyword, afterKeyword?_unplaced, Option.isSome_map]
  rfl

/-- What is found in the marks of a text may be found in the marks without offsets. -/
theorem scan_eq_ok_iff {α : Type} {r : Except SyntaxFault α} {a : α} {P : List Mark → Prop}
    {t : List Char} (hP : ∀ ms, P (ms.map Mark.unplaced) ↔ P ms)
    (herror : ∀ e, scan t = .error e → r = .error e)
    (hok : ∀ ms, scan t = .ok ms → (r = .ok a ↔ P ms)) :
    r = .ok a ↔ ∃ ms, Scans t ms ∧ P ms := by
  constructor
  · intro h
    cases hscan : scan t with
    | error e =>
        rw [herror e hscan] at h
        cases h
    | ok marks => exact ⟨_, .of_scan hscan, (hP marks).2 ((hok marks hscan).1 h)⟩
  · rintro ⟨ms, hms, h⟩
    obtain ⟨marks, hscan, rfl⟩ := Scans.iff_scan.1 hms
    exact (hok marks hscan).2 ((hP marks).1 h)

/-- A level that looks for a cut and goes on with the same text if there is none. -/
theorem cut_eq_ok_iff {r : Except SyntaxFault Step} {find : List Mark → Option Cut} {next s : Step}
    {P : Cut → Prop} {t : List Char}
    (hfind : ∀ ms, find (ms.map Mark.unplaced) = (find ms).map Cut.unplaced)
    (hP : ∀ c : Cut, P c.unplaced ↔ P c) (herror : ∀ e, scan t = .error e → r = .error e)
    (hnone : ∀ ms, scan t = .ok ms → find ms = none → r = .ok next)
    (hsome : ∀ ms c, scan t = .ok ms → find ms = some c → (r = .ok s ↔ P c)) :
    r = .ok s ↔ ∃ ms, Scans t ms ∧ ((find ms = none ∧ s = next) ∨ ∃ c, find ms = some c ∧ P c) := by
  refine scan_eq_ok_iff (fun ms => ?_) herror fun ms hscan => ?_
  · rw [hfind]
    cases find ms with
    | none => exact Iff.rfl
    | some c => simp [hP]
  · cases hcut : find ms with
    | none =>
        rw [hnone ms hscan hcut]
        simp [eq_comm]
    | some c =>
        rw [hsome ms c hscan hcut]
        simp

theorem twoOperands_eq_ok_iff {fault : SyntaxFault} {tag : Tag} {l r : Level}
    {left right : List Char} {s : Step} : twoOperands fault tag l r left right = .ok s ↔
      Text.trim left ≠ [] ∧ Text.trim right ≠ [] ∧
        s = .node tag [] [⟨l, Text.trim left⟩, ⟨r, Text.trim right⟩] := by
  unfold twoOperands
  by_cases hl : Text.trim left = []
  · simp [hl]
  · by_cases hr : Text.trim right = []
    · simp [hr]
    · simp [hl, hr, eq_comm (a := s)]

/-- On the levels of `or` and `and` a text is cut at the last of these words. -/
theorem splitKeyword_eq_ok_iff {word : String} {tag : Tag} {this next : Level} {t : List Char}
    {s : Step} : splitKeyword word tag this next t = .ok s ↔ ∃ ms, Scans t ms ∧
      ((lastCut (·.hasKeyword word.toList) ms = none ∧ s = .same ⟨next, t⟩) ∨
        ∃ c, lastCut (·.hasKeyword word.toList) ms = some c ∧
          twoOperands (.operands word) tag this next c.left
            (textOf ((c.afterKeyword? word.toList).getD [])) = .ok s) := by
  have hcut : (fun c : Cut => (c.afterKeyword? word.toList).isSome) =
      (·.hasKeyword word.toList) := rfl
  refine cut_eq_ok_iff (lastCut_map_unplaced (Cut.hasKeyword_unplaced word.toList)) (fun c => ?_)
    (fun e hscan => ?_) (fun ms hscan hnone => ?_) fun ms c hscan hsome => ?_
  · rw [Cut.left_unplaced, Cut.afterKeyword?_unplaced]
    cases c.afterKeyword? word.toList <;> simp
  · simp only [splitKeyword, hscan]
  · simp only [splitKeyword, hscan, hcut, hnone]
  · simp only [splitKeyword, hscan, hcut, hsome]

/-- On the level of comparisons a text is cut at the first one. -/
theorem splitComparison_eq_ok_iff {t : List Char} {s : Step} :
    splitComparison t = .ok s ↔ ∃ ms, Scans t ms ∧
      ((firstCut (·.isTop ['<', '>', '=', '!']) ms = none ∧ s = .same ⟨.sum, t⟩) ∨
        ∃ c, firstCut (·.isTop ['<', '>', '=', '!']) ms = some c ∧ ∃ tag rest,
          c.comparison? = some (tag, rest) ∧
          twoOperands .comparisonOperands tag .sum .sum c.left (textOf rest) = .ok s) := by
  refine cut_eq_ok_iff (firstCut_map_unplaced fun _ => rfl) (fun c => ?_) (fun e hscan => ?_)
    (fun ms hscan hnone => ?_) fun ms c hscan hsome => ?_
  · rw [Cut.left_unplaced, Cut.comparison?_unplaced]
    cases c.comparison? with
    | none => simp
    | some r =>
        constructor
        · rintro ⟨_, _, heq, h⟩
          obtain ⟨rfl, rfl⟩ := Prod.mk.inj (Option.some.inj heq)
          exact ⟨r.1, r.2, rfl, by rwa [textOf_unplaced] at h⟩
        · rintro ⟨_, _, heq, h⟩
          obtain rfl := Option.some.inj heq
          exact ⟨_, _, rfl, by rwa [textOf_unplaced]⟩
  · simp only [splitComparison, hscan]
  · simp only [splitComparison, hscan, hnone]
  · simp only [splitComparison, hscan, hsome]
    cases c.comparison? with
    | none => simp
    | some r =>
        constructor
        · intro h
          exact ⟨r.1, r.2, rfl, h⟩
        · rintro ⟨_, _, heq, h⟩
          rwa [Option.some.inj heq]

/-- On the level of sums a text is cut at the last sign between two operands. -/
theorem splitSum_eq_ok_iff {t : List Char} {s : Step} : splitSum t = .ok s ↔ ∃ ms, Scans t ms ∧
    ((lastCut (·.isBinarySign) ms = none ∧ s = .same ⟨.product, t⟩) ∨
      ∃ c, lastCut (·.isBinarySign) ms = some c ∧ Text.trim c.right ≠ [] ∧
        s = .node (if c.mark.char = '+' then .sum else .difference) []
          [⟨.sum, Text.trim c.left⟩, ⟨.product, Text.trim c.right⟩]) := by
  refine cut_eq_ok_iff (lastCut_map_unplaced Cut.isBinarySign_unplaced) (fun c => ?_)
    (fun e hscan => ?_) (fun ms hscan hnone => ?_) fun ms c hscan hsome => ?_
  · rw [Cut.left_unplaced, Cut.right_unplaced]
    exact Iff.rfl
  · simp only [splitSum, hscan]
  · simp only [splitSum, hscan, hnone]
  · simp only [splitSum, hscan, hsome]
    by_cases h : Text.trim c.right = []
    · simp [h]
    · simp [h, eq_comm (a := s)]

/-- On the level of products a text is cut at the last sign of a product or a quotient. -/
theorem splitProduct_eq_ok_iff {t : List Char} {s : Step} :
    splitProduct t = .ok s ↔ ∃ ms, Scans t ms ∧
      ((lastCut (·.isProductSign) ms = none ∧ s = .same ⟨.unary, t⟩) ∨
        ∃ c, lastCut (·.isProductSign) ms = some c ∧
          twoOperands (.operands (String.singleton c.mark.char))
            (if c.mark.char = '*' then .product else .quotient) .product .unary c.left c.right =
              .ok s) := by
  refine cut_eq_ok_iff (lastCut_map_unplaced Cut.isProductSign_unplaced) (fun c => ?_)
    (fun e hscan => ?_) (fun ms hscan hnone => ?_) fun ms c hscan hsome => ?_
  · rw [Cut.left_unplaced, Cut.right_unplaced]
    exact Iff.rfl
  · simp only [splitProduct, hscan]
  · simp only [splitProduct, hscan, hnone]
  · simp only [splitProduct, hscan, hsome]

/-- On the level of powers a text is cut at the first power sign. -/
theorem splitPower_eq_ok_iff {t : List Char} {s : Step} : splitPower t = .ok s ↔ ∃ ms, Scans t ms ∧
    ((firstCut (·.isPowerSign) ms = none ∧ s = .same ⟨.indexed, t⟩) ∨
      ∃ c, firstCut (·.isPowerSign) ms = some c ∧
        twoOperands (.operands "**") .power .indexed .unary c.left (textOf (c.after.drop 1)) =
          .ok s) := by
  refine cut_eq_ok_iff (firstCut_map_unplaced Cut.isPowerSign_unplaced) (fun c => ?_)
    (fun e hscan => ?_) (fun ms hscan hnone => ?_) fun ms c hscan hsome => ?_
  · rw [Cut.left_unplaced]
    simp only [Cut.unplaced, ← List.map_drop, textOf_unplaced]
  · simp only [splitPower, hscan]
  · simp only [splitPower, hscan, hnone]
  · simp only [splitPower, hscan, hsome]

/-! ## Indexes and single operands -/

/-- A text in parentheses has two characters on top. -/
theorem isWrapped_eq_ok_iff {t : List Char} {b : Bool} : isWrapped t = .ok b ↔
    if t.head? = some '(' ∧ t.getLast? = some ')' then
      ∃ ms, Scans t ms ∧ b = ((ms.filter (·.top)).length == 2)
    else b = false := by
  unfold isWrapped
  by_cases h : t.head? = some '(' ∧ t.getLast? = some ')'
  · rw [if_pos h, if_pos (by simp [h])]
    refine scan_eq_ok_iff (fun ms => ?_) (fun e hscan => ?_) fun ms hscan => ?_
    · rw [List.filter_map, List.length_map]
      exact Iff.rfl
    · simp only [hscan]
    · simp only [hscan, Except.ok.injEq]
      exact eq_comm
  · rw [if_neg h, if_neg (by simpa using h)]
    simp [eq_comm]

theorem splitPrimary_of_isWrapped {t : List Char} (h : isWrapped (Text.trim t) = .ok true) :
    splitPrimary t = .ok (.node .parentheses [] [⟨.expression, inside (Text.trim t)⟩]) := by
  have hhead : (Text.trim t).head? = some '(' := by
    rw [isWrapped_eq_ok_iff] at h
    split at h
    · next hends => exact hends.1
    · cases h
  simp only [splitPrimary, hhead, h]
  rfl

/-- On the level of indexes a text that ends in a bracket is cut at the last opening one. -/
theorem splitIndexed_eq_ok_iff {text : List Char} {s : Step} : splitIndexed text = .ok s ↔
    if (Text.trim text).getLast? = some ']' then ∃ ms, Scans (Text.trim text) ms ∧
      ((lastCut (·.isTop ['[']) ms = none ∧ s = .same ⟨.primary, Text.trim text⟩) ∨
        ∃ c, lastCut (·.isTop ['[']) ms = some c ∧ Text.trim c.left ≠ [] ∧
          ∃ wrapped, isWrapped (Text.trim c.left) = .ok wrapped ∧
            s = if wrapped then
                .index .indexParentheses ⟨.primary, Text.trim c.left⟩ ⟨.expression, c.right.dropLast⟩
              else .index .index ⟨.indexed, Text.trim c.left⟩ ⟨.expression, c.right.dropLast⟩)
    else s = .same ⟨.primary, Text.trim text⟩ := by
  by_cases hlast : (Text.trim text).getLast? = some ']'
  · rw [if_pos hlast]
    refine cut_eq_ok_iff (lastCut_map_unplaced fun _ => rfl) (fun c => ?_) (fun e hscan => ?_)
      (fun ms hscan hnone => ?_) fun ms c hscan hsome => ?_
    · rw [Cut.left_unplaced, Cut.right_unplaced]
    · simp only [splitIndexed, hlast, beq_self_eq_true, if_true, hscan]
    · simp only [splitIndexed, hlast, beq_self_eq_true, if_true, hscan, hnone]
    · simp only [splitIndexed, hlast, beq_self_eq_true, if_true, hscan, hsome]
      by_cases h : Text.trim c.left = []
      · simp [h]
      · cases hw : isWrapped (Text.trim c.left) with
        | error e => simp [h]
        | ok wrapped => cases wrapped <;> simp [h, eq_comm (a := s)]
  · rw [if_neg hlast]
    simp [splitIndexed, hlast, eq_comm (a := s)]

theorem splitReference_eq_ok_iff {t : List Char} {s : Step} :
    splitReference t = .ok s ↔ ∃ ms, Scans t ms ∧ (t.drop 1).head? = some '(' ∧
      ((ms.drop 2).findIdx? fun m => m.top && m.char == ')').any (· + 3 == t.length) = true ∧
      Text.trim (inside (t.drop 1)) ≠ [] ∧
      s = .done (.leaf .column (String.ofList (Text.trim (inside (t.drop 1))))) := by
  refine scan_eq_ok_iff (fun ms => ?_) (fun e hscan => ?_) fun ms hscan => ?_
  · rw [← List.map_drop, List.findIdx?_map]
    exact Iff.rfl
  · simp only [splitReference, hscan]
  · simp only [splitReference, hscan]
    generalize t.drop 1 = u
    by_cases hhead : u.head? = some '('
    · cases hclose : ((ms.drop 2).findIdx? fun m => m.top && m.char == ')').any
        (· + 3 == t.length) with
      | false => simp
      | true =>
          by_cases hname : Text.trim (inside u) = []
          · simp [hhead, hname]
          · simp [hhead, hname, eq_comm (a := s)]
    · simp [hhead]

theorem isEscaped_unplaced (ms : List Mark) : isEscaped (ms.map Mark.unplaced) = isEscaped ms := by
  simp [isEscaped, List.takeWhile_map, Function.comp_def]

theorem splitText_eq_ok_iff {quote : Char} {t : List Char} {s : Step} :
    splitText quote t = .ok s ↔ ∃ ms, Scans t ms ∧
      (((cuts ms).drop 1).find? fun c => c.mark.char == quote && !isEscaped c.before).any
        (·.after.isEmpty) = true ∧
      s = .done (.leaf .text (String.ofList (unescape (inside t)))) := by
  refine scan_eq_ok_iff (fun ms => ?_) (fun e hscan => ?_) fun ms hscan => ?_
  · have hcuts : cuts (ms.map Mark.unplaced) = (cuts ms).map Cut.unplaced :=
      cutsFrom_map_unplaced [] ms
    simp only [hcuts, ← List.map_drop, List.find?_map, Function.comp_def, Option.any_map]
    simp only [Cut.unplaced, isEscaped_unplaced, Mark.char_unplaced, List.isEmpty_map]
  · simp only [splitText, hscan]
  · simp only [splitText, hscan]
    generalize (((cuts ms).drop 1).find? fun c => c.mark.char == quote && !isEscaped c.before).any
      (·.after.isEmpty) = closed
    cases closed with
    | false => simp
    | true => simp [eq_comm (a := s)]

/-- The texts between commas do not depend on offsets. -/
theorem commaPieces_unplaced (current : List Char) (ms : List Mark) :
    commaPieces current (ms.map Mark.unplaced) = commaPieces current ms := by
  induction ms generalizing current with
  | nil => rfl
  | cons m ms ih => simp only [List.map_cons, commaPieces, Mark.char_unplaced, Mark.top_unplaced, ih]

theorem argumentPieces_eq_ok_iff {t : List Char} {ps : List Piece} :
    argumentPieces t = .ok ps ↔
      if Text.trim t = [] then ps = []
      else ∃ ms, Scans t ms ∧ ps = (commaPieces [] ms).map fun s => ⟨.expression, s⟩ := by
  unfold argumentPieces
  by_cases h : Text.trim t = []
  · rw [if_pos h, if_pos (by simpa using h), Except.ok.injEq]
    exact eq_comm
  · rw [if_neg h, if_neg (by simpa using h)]
    refine scan_eq_ok_iff (fun ms => ?_) (fun e hscan => ?_) fun ms hscan => ?_
    · rw [commaPieces_unplaced]
    · simp only [hscan]
    · simp only [hscan, Except.ok.injEq]
      exact eq_comm

end ColumnTree.Formula
