/-
# How trees are written

`Spelled l x ms` says what the text `x` of a tree of level `l` is like, with the marks that the
scanner gives it: it is scanned as a piece of its own and, without marks on top, inside brackets; and
nowhere does it have an operator of a looser level, whatever stands around it.  Only with signs it
matters what stands in front: a tree may begin with one, and after an operand that would be an operator
between two.

Each rule of the grammar makes spelled texts from spelled texts.
-/
import ColumnTree.Proofs.Formula.Leaves
import ColumnTree.Proofs.Formula.Number
import ColumnTree.Proofs.Formula.Sifted

namespace ColumnTree.Formula

/-- The characters after which a sign belongs to the operand behind it. -/
def leaders : List Char := ['+', '-', '*', '/', '<', '>', '=', '!', ',']

/-- A sign behind these marks, the nearest first, belongs to the operand after it. -/
def Leads (before : List Mark) : Prop :=
  ∀ m, before.find? (fun m => !Text.isBlank m.char) = some m → m.char ∈ leaders

/-- The text of a tree of a level, and its marks. -/
structure Spelled (l : Level) (x : List Char) (ms : List Mark) : Prop where
  reads : Reads ⟨.plain false, []⟩ x ms ⟨.plain false, []⟩
  nested : ∀ b stack,
    Reads ⟨.plain false, b :: stack⟩ x (x.map (.of · false)) ⟨.plain false, b :: stack⟩
  comma : ∀ m ∈ ms, m.top = true → m.char ≠ ','
  quiet : ∀ (l' : Level) (before after : List Mark), l.rank < l'.rank →
    (l' = .sum → Leads before) → Clear l'.isCut before ms after
  first : ∃ c y, x = c :: y ∧ Text.isBlank c = false ∧
    (l.rank < Level.unary.rank → c ≠ '-' ∧ c ≠ '+')
  last : ∃ y c, x = y ++ [c] ∧ Text.isBlank c = false ∧ c ∉ leaders

/-- What a text must be to stand in brackets: it leaves them open, and nothing in it is on top. -/
def Nested (x : List Char) : Prop :=
  ∀ b stack,
    Reads ⟨.plain false, b :: stack⟩ x (x.map (.of · false)) ⟨.plain false, b :: stack⟩

/-! ## Marks that are no operators -/

theorem clear_of_notMem {l : Level} {before ms after : List Mark}
    (h : ∀ m ∈ ms, m.top = true → m.char ∉ l.cutChars) : Clear l.isCut before ms after := by
  rintro x m y rfl
  rw [← Bool.not_eq_true]
  intro hcut
  obtain ⟨htop, hc⟩ := Level.mem_of_isCut hcut
  exact h m (by simp) htop hc

/-- Nothing that is not on top is an operator. -/
theorem clear_nested {l : Level} {x : List Char} {before after : List Mark} :
    Clear l.isCut before (x.map (.of · false)) after := by
  refine clear_of_notMem fun m hm htop => ?_
  obtain ⟨c, -, rfl⟩ := List.mem_map.1 hm
  cases htop

/-- Characters that are all on top. -/
theorem clear_top {l : Level} {x : List Char} {before after : List Mark}
    (h : ∀ c ∈ x, c ∉ l.cutChars) : Clear l.isCut before (x.map (.of · true)) after := by
  refine clear_of_notMem fun m hm _ => ?_
  obtain ⟨c, hc, rfl⟩ := List.mem_map.1 hm
  exact h c hc

/-- Of brackets with something in them only the brackets are on top. -/
theorem char_mem_of_mem_brackets {o c : Char} {x : List Char} {m : Mark}
    (hm : m ∈ .of o true :: (x.map (.of · false) ++ [.of c true])) (htop : m.top = true) :
    m.char ∈ [o, c] := by
  simp only [List.mem_cons, List.mem_append, List.mem_map, List.not_mem_nil, or_false] at hm
  rcases hm with rfl | ⟨d, -, rfl⟩ | rfl
  · exact List.mem_cons_self ..
  · cases htop
  · exact List.mem_cons_of_mem _ (List.mem_cons_self ..)

theorem clear_brackets {l : Level} {o c : Char} {x : List Char} {before after : List Mark}
    (h : ∀ d ∈ [o, c], d ∉ l.cutChars) :
    Clear l.isCut before (.of o true :: (x.map (.of · false) ++ [.of c true])) after :=
  clear_of_notMem fun _ hm htop => h _ (char_mem_of_mem_brackets hm htop)

theorem comma_brackets {o c : Char} {x : List Char} {m : Mark} (h : ∀ d ∈ [o, c], d ≠ ',')
    (hm : m ∈ .of o true :: (x.map (.of · false) ++ [.of c true])) (htop : m.top = true) :
    m.char ≠ ',' :=
  h _ (char_mem_of_mem_brackets hm htop)

/-! ## Signs -/

theorem leads_of_mem {m : Mark} {before : List Mark} (h : m.char ∈ leaders) :
    Leads (m :: before) := by
  have hblank : ∀ c ∈ leaders, Text.isBlank c = false := by decide
  intro n hn
  rw [List.find?_cons_of_pos (by rw [hblank _ h]; rfl)] at hn
  rwa [← Option.some.inj hn]

theorem leads_blank {m : Mark} {before : List Mark} (hm : Text.isBlank m.char = true)
    (h : Leads before) : Leads (m :: before) := by
  intro n hn
  rw [List.find?_cons_of_neg (by rw [hm]; decide)] at hn
  exact h n hn

theorem leads_nil : Leads [] := by
  intro m hm
  cases hm

theorem isBinarySign_of_leads {before after : List Mark} {m : Mark} (h : Leads before) :
    Cut.isBinarySign ⟨before, m, after⟩ = false := by
  rw [Cut.isBinarySign]
  refine Bool.and_eq_false_iff.2 (.inr ?_)
  rw [Cut.previous?]
  dsimp only
  cases hfind : before.find? fun m => !Text.isBlank m.char with
  | none => rfl
  | some n =>
      show (!leaders.contains n.char) = false
      simp [h n hfind]

/-! ## Operators -/

/-- What the grammar needs of the text of a binary operator.  Only half of a power sign looks like the
sign of a looser level. -/
theorem Tag.operator_of_levels? {tag : Tag} {l left right : Level}
    (h : tag.levels? = some (l, left, right)) : ∃ op : String, tag.operator? = some op ∧
      left.rank ≤ l.rank ∧ (∀ c ∈ op.toList, Ordinary c ∧ c ≠ ',') ∧
      (l.rank < Level.sum.rank → op.toList.getLast?.any (leaders.contains ·) = true) ∧
      ∀ l' : Level, l.rank < l'.rank → (right.rank < l'.rank ∨ l' = .unary) ∧
        ((∀ c ∈ op.toList, c ∉ l'.cutChars) ∨ (l' = .product ∧ op = "**")) := by
  cases tag <;>
    simp only [levels?, reduceCtorEq, Option.some.injEq, Prod.mk.injEq] at h <;>
    obtain ⟨rfl, rfl, rfl⟩ := h <;>
    exact ⟨_, rfl, by decide, by decide, by decide, fun l' => by cases l' <;> decide⟩

/-- The marks of an operator with blanks around it. -/
def operatorMarks (op : List Char) : List Mark :=
  (' ' :: (op ++ [' '])).map (.of · true)

theorem clear_operatorMarks {l : Level} {op : List Char} {before after : List Mark}
    (h : (∀ c ∈ op, c ∉ l.cutChars) ∨ (l = .product ∧ op = ['*', '*'])) :
    Clear l.isCut before (operatorMarks op) after := by
  rcases h with h | ⟨rfl, rfl⟩
  · refine clear_top fun c hc => ?_
    have hblank : ' ' ∉ l.cutChars := by cases l <;> decide
    simp only [List.mem_cons, List.mem_append, List.not_mem_nil, or_false] at hc
    rcases hc with rfl | hc | rfl
    · exact hblank
    · exact h c hc
    · exact hblank
  · -- A star beside a star is no product sign.
    simp [operatorMarks, clear_cons, clear_nil, Level.isCut, Cut.isProductSign, Cut.isTop,
      startsWithStar]

theorem leads_operatorMarks {op : List Char} {before : List Mark}
    (h : op.getLast?.any (leaders.contains ·) = true) :
    Leads ((operatorMarks op).reverse ++ before) := by
  obtain ⟨c, hlast, hc⟩ := (Option.any_eq_true ..).1 h
  obtain ⟨pre, rfl⟩ := List.getLast?_eq_some_iff.1 hlast
  rw [operatorMarks, List.map_cons, List.map_append, List.map_append, List.reverse_cons,
    List.reverse_append, List.reverse_append]
  exact leads_blank rfl (leads_of_mem (by simpa using hc))

namespace Spelled

variable {l m : Level} {x y : List Char} {ms ns : List Mark}

theorem bare (h : Spelled l x ms) : Text.Bare x := by
  obtain ⟨c, y, rfl, hc, -⟩ := h.first
  obtain ⟨z, d, hz, hd, -⟩ := h.last
  constructor
  · intro c' y' heq
    rwa [← (List.cons.inj heq).1]
  · intro z' d' heq
    rw [hz] at heq
    rwa [← (List.cons.inj (List.append_inj' heq rfl).2).1]

theorem ne_nil (h : Spelled l x ms) : x ≠ [] := by
  obtain ⟨c, y, rfl, -⟩ := h.first
  exact List.cons_ne_nil c y

theorem scans (h : Spelled l x ms) : Scans x ms :=
  ⟨false, h.reads⟩

theorem loosen (h : Spelled m x ms) (hl : l.tighter? = some m) : Spelled l x ms := by
  have hrank := Level.rank_of_tighter? hl
  refine { h with quiet := fun l' before after hlt => h.quiet l' before after (by omega),
                  first := ?_ }
  obtain ⟨c, y, heq, hc, hsign⟩ := h.first
  exact ⟨c, y, heq, hc, fun hlt => hsign (by omega)⟩

/-! ## Rules -/

/-- A sign in front of an operand. -/
theorem negation (h : Spelled .unary x ms) : Spelled .unary ('-' :: x) (.of '-' true :: ms) where
  reads := .cons rfl h.reads
  nested b stack := .cons rfl (h.nested b stack)
  comma n hn htop := by
    rcases List.mem_cons.1 hn with rfl | hn
    · decide
    · exact h.comma n hn htop
  quiet l' before after hrank hlead := by
    rw [clear_cons]
    refine ⟨?_, h.quiet l' _ after hrank fun _ => leads_of_mem (by decide)⟩
    by_cases hl : l' = .sum
    · subst hl
      exact isBinarySign_of_leads (hlead rfl)
    · rw [← Bool.not_eq_true]
      intro hcut
      have hmem : '-' ∈ l'.cutChars := (Level.mem_of_isCut hcut).2
      revert hl hmem
      cases l' <;> decide
  first := ⟨'-', x, rfl, rfl, fun hlt => absurd hlt (Nat.lt_irrefl _)⟩
  last := by
    obtain ⟨y, c, heq, hc⟩ := h.last
    exact ⟨'-' :: y, c, by rw [heq]; rfl, hc⟩

/-- An operator between two operands. -/
theorem binary {tag : Tag} {left right : Level} {op : String} (hx : Spelled left x ms)
    (hy : Spelled right y ns) (htag : tag.levels? = some (l, left, right))
    (hop : tag.operator? = some op) :
    Spelled l (x ++ ' ' :: op.toList ++ ' ' :: y) (ms ++ (operatorMarks op.toList ++ ns)) := by
  obtain ⟨op', hop', hleft, hord, hlast, hlooser⟩ := Tag.operator_of_levels? htag
  obtain rfl := Option.some.inj (hop.symm.trans hop')
  have htext : x ++ ' ' :: op.toList ++ ' ' :: y = x ++ (' ' :: (op.toList ++ [' ']) ++ y) := by
    simp
  have hordinary : ∀ c ∈ ' ' :: (op.toList ++ [' ']), Ordinary c ∧ c ≠ ',' := by
    intro c hc
    simp only [List.mem_cons, List.mem_append, List.not_mem_nil, or_false] at hc
    rcases hc with rfl | hc | rfl
    · decide
    · exact hord c hc
    · decide
  rw [htext]
  constructor
  · exact hx.reads.append ((Reads.ordinary (fun c hc => (hordinary c hc).1) []).append hy.reads)
  · intro b stack
    rw [List.map_append, List.map_append]
    exact (hx.nested b stack).append
      ((Reads.ordinary (fun c hc => (hordinary c hc).1) (b :: stack)).append (hy.nested b stack))
  · intro n hn htop
    rcases List.mem_append.1 hn with hn | hn
    · exact hx.comma n hn htop
    · rcases List.mem_append.1 hn with hn | hn
      · obtain ⟨c, hc, rfl⟩ := List.mem_map.1 hn
        exact (hordinary c hc).2
      · exact hy.comma n hn htop
  · intro l' before after hrank hlead
    obtain ⟨hright, hcut⟩ := hlooser l' hrank
    rw [clear_append, clear_append]
    refine ⟨hx.quiet l' _ _ (Nat.lt_of_le_of_lt hleft hrank) hlead, clear_operatorMarks ?_, ?_⟩
    · refine hcut.imp_right ?_
      rintro ⟨hl, rfl⟩
      exact ⟨hl, rfl⟩
    · rcases hright with hright | rfl
      · refine hy.quiet l' _ _ hright ?_
        rintro rfl
        exact leads_operatorMarks (hlast hrank)
      · exact clear_of_notMem fun _ _ _ => List.not_mem_nil
  · obtain ⟨c, z, rfl, hc, hsign⟩ := hx.first
    exact ⟨c, _, rfl, hc, fun hlt => hsign (Nat.lt_of_le_of_lt hleft hlt)⟩
  · obtain ⟨z, c, rfl, hc⟩ := hy.last
    exact ⟨x ++ (' ' :: (op.toList ++ [' ']) ++ z), c, by simp, hc⟩

/-- An index in brackets. -/
theorem index (hx : Spelled .indexed x ms) (hy : Nested y) :
    Spelled .indexed (x ++ '[' :: y ++ [']'])
      (ms ++ .of '[' true :: (y.map (.of · false) ++ [.of ']' true])) := by
  rw [List.append_assoc]
  constructor
  · exact hx.reads.append (.cons rfl ((hy '[' []).append (.single rfl)))
  · intro b stack
    rw [List.map_append, List.cons_append, List.map_cons, List.map_append]
    exact (hx.nested b stack).append (.cons rfl ((hy '[' (b :: stack)).append (.single rfl)))
  · intro n hn htop
    rcases List.mem_append.1 hn with hn | hn
    · exact hx.comma n hn htop
    · exact comma_brackets (by decide) hn htop
  · intro l' before after hrank hlead
    rw [clear_append]
    refine ⟨hx.quiet l' _ _ hrank hlead, clear_brackets ?_⟩
    revert hrank
    cases l' <;> decide
  · obtain ⟨c, z, rfl, hc⟩ := hx.first
    exact ⟨c, _, rfl, hc⟩
  · exact ⟨x ++ ('[' :: y), ']', by simp, rfl, by decide⟩

end Spelled

/-! ## Single operands -/

/-- A keyword may begin only where an identifier does. -/
theorem eq_nil_of_hasKeyword {word : List Char} {x before after : List Mark} {m : Mark}
    (hx : ∀ n ∈ x, isIdentChar n.char = true)
    (hcut : Cut.hasKeyword word ⟨x.reverse ++ before, m, after⟩ = true) : x = [] := by
  obtain ⟨-, hbefore, -⟩ := Cut.hasKeyword_iff.1 hcut
  rcases List.eq_nil_or_concat x with rfl | ⟨x, n, rfl⟩
  · rfl
  · have := hbefore n (by simp)
    rw [hx n (by simp)] at this
    cases this

theorem isIdentChar_of_mem_marks {name : List Char} (hname : ∀ c ∈ name, isIdentChar c = true)
    {x y : List Mark} {m : Mark} (heq : name.map (.of · true) = x ++ m :: y) :
    ∀ n ∈ x ++ m :: y, isIdentChar n.char = true := by
  rw [← heq]
  intro n hn
  obtain ⟨c, hc, rfl⟩ := List.mem_map.1 hn
  exact hname c hc

/-- A name in front of a parenthesis is no other word, and no part of it is a word. -/
theorem clear_name {name word : List Char} {before after : List Mark}
    (hname : ∀ c ∈ name, isIdentChar c = true) (hword : ∀ c ∈ word, isIdentChar c = true)
    (hne : name ≠ word) :
    Clear (·.hasKeyword word) before (name.map (.of · true)) (.of '(' true :: after) := by
  intro x m y heq
  rw [← Bool.not_eq_true]
  intro hcut
  obtain rfl := eq_nil_of_hasKeyword
    (fun n hn => isIdentChar_of_mem_marks hname heq n (List.mem_append_left _ hn)) hcut
  obtain ⟨-, -, ws, rest, hws, rfl, hrest⟩ := Cut.hasKeyword_iff.1 hcut
  have htext : name ++ '(' :: textOf after = textOf ws ++ textOf rest := by
    rw [← textOf_append, ← hws]
    show _ = textOf (m :: (y ++ .of '(' true :: after))
    rw [← List.cons_append, textOf_append, show m :: y = name.map (.of · true) from heq.symm]
    simp [textOf, Function.comp_def]
  rcases List.append_eq_append_iff.1 htext with ⟨u, hu, hu'⟩ | ⟨u, hu, hu'⟩
  · cases u with
    | nil => exact hne (by rw [hu, List.append_nil])
    | cons c u =>
        obtain ⟨rfl, -⟩ := List.cons.inj hu'
        have := hword '(' (by rw [hu]; simp)
        cases this
  · cases u with
    | nil => exact hne (by rw [hu, List.append_nil])
    | cons c u =>
        cases rest with
        | nil => cases hu'
        | cons k rest =>
            obtain ⟨hk, -⟩ := List.cons.inj hu'
            have := hrest k rfl
            rw [show k.char = c from hk, hname c (by rw [hu]; simp)] at this
            cases this

/-- Only the words are operators that identifiers could be taken for. -/
theorem clear_identChars {l : Level} {name : List Char} {before after : List Mark}
    (hname : ∀ c ∈ name, isIdentChar c = true) (hl : ∀ c ∈ l.cutChars, isIdentChar c = false) :
    Clear l.isCut before (name.map (.of · true)) after := by
  refine clear_top fun c hc hmem => ?_
  have := hl c hmem
  rw [hname c hc] at this
  cases this

theorem clear_identifier {l : Level} {name : List Char} {before after : List Mark}
    (hname : ∀ c ∈ name, isIdentChar c = true) (hor : name ≠ "or".toList)
    (hand : name ≠ "and".toList) :
    Clear l.isCut before (name.map (.of · true)) (.of '(' true :: after) := by
  cases l with
  | disjunction => exact clear_name hname (by decide) hor
  | conjunction => exact clear_name hname (by decide) hand
  | _ => exact clear_identChars hname (by decide)

/-- A word with another first letter than those of the operators. -/
theorem clear_word {l : Level} {s : List Char} {before after : List Mark}
    (hs : ∀ c ∈ s, isIdentChar c = true) (hhead : s.head? ∉ [some 'o', some 'a']) :
    Clear l.isCut before (s.map (.of · true)) after := by
  have hkeyword : ∀ a word, some a ∈ [some 'o', some 'a'] →
      Clear (·.hasKeyword (a :: word)) before (s.map (.of · true)) after := by
    intro a word ha x m y heq
    rw [← Bool.not_eq_true]
    intro hcut
    obtain rfl := eq_nil_of_hasKeyword
      (fun n hn => isIdentChar_of_mem_marks hs heq n (List.mem_append_left _ hn)) hcut
    obtain ⟨c, s, rfl, rfl, -⟩ := List.map_eq_cons_iff.1 heq
    obtain rfl : c = a := List.mem_singleton.1 (Cut.mem_of_hasKeyword hcut).2
    exact hhead ha
  cases l with
  | disjunction => exact hkeyword 'o' ['r'] (by decide)
  | conjunction => exact hkeyword 'a' ['n', 'd'] (by decide)
  | _ => exact clear_identChars hs (by decide)

/-- Only signs are operators that characters of numbers could be taken for. -/
theorem clear_numberChars {l : Level} {s : List Char} {before after : List Mark} (hl : l ≠ .sum)
    (hs : ∀ c ∈ s, IsNumberChar c) : Clear l.isCut before (s.map (.of · true)) after := by
  refine clear_top fun c hc => (hs c hc).notMem ?_
  revert hl
  cases l <;> decide

/-- The sign of an exponent is no sign between operands. -/
theorem clear_number {l : Level} {s : List Char} {before after : List Mark} (h : IsNumber s) :
    Clear l.isCut before (s.map (.of · true)) after := by
  by_cases hl : l = .sum
  · subst hl
    intro x m y heq
    obtain ⟨x', c, y', rfl, rfl, hcy⟩ : ∃ x' c y', s = x' ++ c :: y' ∧ x = x'.map (.of · true) ∧
        m = .of c true := by
      obtain ⟨x', z, rfl, rfl, hz⟩ := List.map_eq_append_iff.1 heq
      obtain ⟨c, y', rfl, rfl, -⟩ := List.map_eq_cons_iff.1 hz
      exact ⟨x', c, y', rfl, rfl, rfl⟩
    subst hcy
    show Cut.isBinarySign _ = false
    by_cases hc : c = '+' ∨ c = '-'
    · obtain ⟨x'', d, e, rfl, hd, he⟩ := h.sign x' c y' rfl hc
      have he' : (e == 'e' || e == 'E') = true := by simpa using he
      simp [Cut.isBinarySign, Cut.isExponentSign, hd, he']
    · simp only [Cut.isBinarySign, Bool.and_eq_false_iff]
      refine .inl (.inl ?_)
      rw [← Bool.not_eq_true]
      intro htop
      exact hc (by simpa using (Cut.isTop_iff.1 htop).2)
  · exact clear_numberChars hl fun c hc => h.isNumberChar hc

namespace Spelled

/-- Something in parentheses, perhaps with the name of a function in front of it. -/
theorem enclosed {name inner : List Char} (hname : ∀ c ∈ name, isIdentChar c = true)
    (hor : name ≠ "or".toList) (hand : name ≠ "and".toList) (hinner : Nested inner) :
    Spelled .primary (name ++ '(' :: inner ++ [')'])
      (name.map (.of · true) ++ .of '(' true :: (inner.map (.of · false) ++ [.of ')' true])) := by
  have hord : ∀ c ∈ name, Ordinary c := fun c hc => ordinary_of_isIdentChar (hname c hc)
  rw [List.append_assoc]
  constructor
  · exact (Reads.ordinary hord []).append (.cons rfl ((hinner '(' []).append (.single rfl)))
  · intro b stack
    rw [List.map_append, List.cons_append, List.map_cons, List.map_append]
    exact (Reads.ordinary hord (b :: stack)).append
      (.cons rfl ((hinner '(' (b :: stack)).append (.single rfl)))
  · intro n hn htop
    rcases List.mem_append.1 hn with hn | hn
    · obtain ⟨c, hc, rfl⟩ := List.mem_map.1 hn
      rintro rfl
      cases hname ',' hc
    · exact comma_brackets (by decide) hn htop
  · intro l' before after _ _
    rw [clear_append]
    refine ⟨clear_identifier hname hor hand, clear_brackets ?_⟩
    cases l' <;> decide
  · cases name with
    | nil => exact ⟨'(', _, rfl, rfl, fun _ => by decide⟩
    | cons c name =>
        have hc := hname c (List.mem_cons_self ..)
        refine ⟨c, _, rfl, isBlank_of_isIdentChar hc, fun _ => ⟨?_, ?_⟩⟩
        · rintro rfl
          cases hc
        · rintro rfl
          cases hc
  · exact ⟨name ++ '(' :: inner, ')', by simp, rfl, by decide⟩

theorem parentheses {x : List Char} (h : Nested x) : Spelled .primary ('(' :: x ++ [')'])
    (.of '(' true :: (x.map (.of · false) ++ [.of ')' true])) :=
  @enclosed [] x (by decide) (by decide) (by decide) h

theorem column {s : List Char} (h : Balanced s) :
    Spelled .primary ('$' :: '(' :: (s ++ [')']))
      (.of '$' true :: .of '(' true :: (s.map (.of · false) ++ [.of ')' true])) := by
  constructor
  · exact Reads.column h []
  · intro b stack
    rw [List.map_cons, List.map_cons, List.map_append]
    exact Reads.column h (b :: stack)
  · intro n hn htop
    rcases List.mem_cons.1 hn with rfl | hn
    · decide
    · exact comma_brackets (by decide) hn htop
  · intro l' before after _ _
    rw [← List.singleton_append, clear_append]
    refine ⟨clear_top (x := ['$']) ?_, clear_brackets ?_⟩ <;> cases l' <;> decide
  · exact ⟨'$', _, rfl, rfl, fun _ => by decide⟩
  · exact ⟨'$' :: '(' :: s, ')', rfl, rfl, by decide⟩

theorem literal {q : Char} {x v : List Char} (hq : q = '"' ∨ q = '\'') (h : Escaped q x v) :
    Spelled .primary (q :: (x ++ [q])) ((q :: (x ++ [q])).map (.of · false)) where
  reads := Reads.literal hq h []
  nested b stack := Reads.literal hq h (b :: stack)
  comma n hn htop := by
    obtain ⟨c, -, rfl⟩ := List.mem_map.1 hn
    cases htop
  quiet _ _ _ _ _ := clear_nested
  first := by
    refine ⟨q, _, rfl, ?_, fun _ => ?_⟩ <;> rcases hq with rfl | rfl <;> decide
  last := by
    refine ⟨q :: x, q, rfl, ?_, ?_⟩ <;> rcases hq with rfl | rfl <;> decide

/-- A text of the characters of numbers, with no sign at either end. -/
theorem ofNumberChars {l : Level} {s : List Char} (hs : ∀ c ∈ s, IsNumberChar c)
    (hquiet : ∀ (l' : Level) (before after : List Mark), l.rank < l'.rank →
      (l' = .sum → Leads before) → Clear l'.isCut before (s.map (.of · true)) after)
    (hhead : s.head?.any (fun c => c.isDigit || c == '.') = true)
    (hlast : ∀ {x : List Char} {c : Char}, s = x ++ [c] → c ≠ '+' ∧ c ≠ '-') :
    Spelled l s (s.map (.of · true)) where
  reads := Reads.ordinary (fun c hc => (hs c hc).ordinary) []
  nested b stack := Reads.ordinary (fun c hc => (hs c hc).ordinary) (b :: stack)
  comma n hn _ := by
    obtain ⟨c, hc, rfl⟩ := List.mem_map.1 hn
    rintro rfl
    exact (hs _ hc).notMem (l := [',']) (by decide) (List.mem_singleton.2 rfl)
  quiet := hquiet
  first := by
    cases s with
    | nil => cases hhead
    | cons c s =>
        refine ⟨c, s, rfl, (hs c (List.mem_cons_self ..)).isBlank, fun _ => ⟨?_, ?_⟩⟩
        · rintro rfl
          cases hhead
        · rintro rfl
          cases hhead
  last := by
    rcases List.eq_nil_or_concat s with rfl | ⟨x, c, rfl⟩
    · cases hhead
    · rw [List.concat_eq_append] at *
      have hc := hs c (by simp)
      refine ⟨x, c, rfl, hc.isBlank, fun hmem => ?_⟩
      obtain ⟨hplus, hminus⟩ := hlast rfl
      have : c ∈ ['*', '/', '<', '>', '=', '!', ','] := by
        simpa [leaders, hplus, hminus] using hmem
      exact hc.notMem (by decide) this

theorem number {s : List Char} (h : IsNumber s) : Spelled .primary s (s.map (.of · true)) :=
  ofNumberChars (fun _ hc => h.isNumberChar hc) (fun _ _ _ _ _ => clear_number h) h.head h.last

/-- A word that cannot be taken for an operator. -/
theorem word {s : List Char} (hne : s ≠ []) (hs : ∀ c ∈ s, isIdentChar c = true)
    (hhead : s.head? ∉ [some 'o', some 'a']) : Spelled .primary s (s.map (.of · true)) := by
  have hord : ∀ c ∈ s, Ordinary c := fun c hc => ordinary_of_isIdentChar (hs c hc)
  have hblank : ∀ c ∈ s, Text.isBlank c = false := fun c hc => isBlank_of_isIdentChar (hs c hc)
  have hother : ∀ c ∈ s, ∀ d, isIdentChar d = false → c ≠ d := by
    rintro c hc d hd rfl
    rw [hs c hc] at hd
    cases hd
  constructor
  · exact Reads.ordinary hord []
  · exact fun b stack => Reads.ordinary hord (b :: stack)
  · intro n hn _
    obtain ⟨c, hc, rfl⟩ := List.mem_map.1 hn
    exact hother c hc ',' rfl
  · exact fun _ _ _ _ _ => clear_word hs hhead
  · obtain ⟨c, y, rfl⟩ := List.exists_cons_of_ne_nil hne
    have hc := List.mem_cons_self (a := c) (l := y)
    exact ⟨c, y, rfl, hblank c hc, fun _ => ⟨hother c hc '-' rfl, hother c hc '+' rfl⟩⟩
  · rcases List.eq_nil_or_concat s with rfl | ⟨y, c, rfl⟩
    · exact absurd rfl hne
    · rw [List.concat_eq_append] at *
      have hc : c ∈ y ++ [c] := by simp
      refine ⟨y, c, rfl, hblank c hc, fun hmem => hother c hc c ?_ rfl⟩
      exact (by decide : ∀ d ∈ leaders, isIdentChar d = false) c hmem

end Spelled

/-! ## All trees -/

/-- Texts with commas, or other plain text, between them. -/
theorem Nested.join {sep : List Char} {xs : List (List Char)} (hsep : ∀ c ∈ sep, Ordinary c)
    (h : ∀ x ∈ xs, Nested x) : Nested (Text.join sep xs) := by
  intro b stack
  induction xs with
  | nil => exact .nil
  | cons x xs ih =>
      cases xs with
      | nil => exact h x (List.mem_cons_self ..) b stack
      | cons y xs =>
          rw [Text.join_cons_cons, List.map_append, List.map_append]
          exact ((h x (List.mem_cons_self ..) b stack).append
            (.ordinary hsep (b :: stack))).append (ih fun z hz => h z (List.mem_cons_of_mem _ hz))

theorem writeAll_eq_map (as : List Ast) : Ast.writeAll as = as.map Ast.write := by
  induction as with
  | nil => rfl
  | cons a as ih => rw [Ast.writeAll, ih, List.map_cons]

theorem write_binary {tag : Tag} {l left right : Level} {op : String} {a b : Ast}
    (htag : tag.levels? = some (l, left, right)) (hop : tag.operator? = some op) :
    (Ast.node tag [a, b]).write = a.write ++ ' ' :: op.toList ++ ' ' :: b.write := by
  cases tag <;>
    simp only [Tag.levels?, reduceCtorEq] at htag <;>
    simp only [Tag.operator?, Option.some.injEq] at hop <;>
    subst hop <;>
    rfl

theorem write_call (name : String) (args : List Ast) : (Ast.node .call (.token name :: args)).write =
    name.toList ++ '(' :: Text.join [',', ' '] (args.map Ast.write) ++ [')'] := by
  rw [← writeAll_eq_map]
  rfl

theorem write_number (s : String) : (Ast.leaf .number s).write = s.toList :=
  List.append_nil _

/-- The text of a tree of a level is one of that level. -/
theorem Shaped.spelled {l : Level} {a : Ast} (h : Shaped l a) : ∃ ms, Spelled l a.write ms := by
  induction h with
  | loosen hl _ ih =>
      obtain ⟨ms, hms⟩ := ih
      exact ⟨ms, hms.loosen hl⟩
  | binary htag _ _ iha ihb =>
      obtain ⟨ms, hms⟩ := iha
      obtain ⟨ns, hns⟩ := ihb
      obtain ⟨op, hop, -⟩ := Tag.operator_of_levels? htag
      rw [write_binary htag hop]
      exact ⟨_, hms.binary hns htag hop⟩
  | negation _ ih =>
      obtain ⟨ms, hms⟩ := ih
      exact ⟨_, hms.negation⟩
  | index _ _ _ iha ihk =>
      obtain ⟨ms, hms⟩ := iha
      obtain ⟨ns, hns⟩ := ihk
      exact ⟨_, hms.index hns.nested⟩
  | indexParentheses _ _ iha ihk =>
      obtain ⟨ms, hms⟩ := iha
      obtain ⟨ns, hns⟩ := ihk
      exact ⟨_, ((Spelled.parentheses hms.nested).loosen (l := .indexed) rfl).index hns.nested⟩
  | parentheses _ ih =>
      obtain ⟨ms, hms⟩ := ih
      exact ⟨_, Spelled.parentheses hms.nested⟩
  | @call name args hname _ ih =>
      have hident := List.all_eq_true.1 (Bool.and_eq_true_iff.1 hname.identifier).2
      rw [write_call]
      refine ⟨_, Spelled.enclosed hident hname.ne_or hname.ne_and
        (Nested.join (by decide) fun x hx => ?_)⟩
      obtain ⟨a, ha, rfl⟩ := List.mem_map.1 hx
      exact (ih a ha).choose_spec.nested
  | column hname => exact ⟨_, Spelled.column hname.balanced⟩
  | text =>
      -- The printer writes a literal in double quotes.
      exact ⟨_, Spelled.literal (.inl rfl) (escaped_escapeIn (.inl rfl) _)⟩
  | number hs =>
      rw [write_number]
      exact ⟨_, Spelled.number hs⟩
  | trueLiteral => exact ⟨_, Spelled.word (s := "true".toList) (by decide) (by decide) (by decide)⟩
  | falseLiteral => exact ⟨_, Spelled.word (s := "false".toList) (by decide) (by decide) (by decide)⟩
  | euler => exact ⟨_, Spelled.word (s := ['e']) (by decide) (by decide) (by decide)⟩

end ColumnTree.Formula
