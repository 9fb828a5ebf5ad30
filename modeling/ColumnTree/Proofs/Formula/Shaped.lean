/-
# The trees of the grammar

`Shaped l a` says that the tree `a` is one of level `l`: the operators of a level stand over operands
of the levels that the grammar gives them, and a level takes in all that the tighter ones have.  The
binary operators are one rule, with their levels in a table (`Tag.levels?`).

Leaves are restricted only where the text of the leaf could be taken for something else.
-/
import ColumnTree.Formula.Reader
import ColumnTree.Formula.Printer

namespace ColumnTree.Formula

/-! ## Leaves -/

/-- Parentheses that are all closed, and none before it is opened. -/
structure Balanced (s : List Char) : Prop where
  /-- As many are closed as are opened. -/
  count_eq : s.count ')' = s.count '('
  /-- At no place have more been closed than opened. -/
  count_le : ∀ x y, s = x ++ y → x.count ')' ≤ x.count '('

theorem balanced_iff_take {s : List Char} :
    Balanced s ↔ s.count ')' = s.count '(' ∧
      ∀ n ≤ s.length, (s.take n).count ')' ≤ (s.take n).count '(' := by
  constructor
  · intro h
    exact ⟨h.count_eq, fun n _ => h.count_le _ _ (List.take_append_drop n s).symm⟩
  · rintro ⟨hcount, htake⟩
    refine ⟨hcount, ?_⟩
    rintro x y rfl
    simpa using htake x.length (by simp)

instance (s : List Char) : Decidable (Balanced s) :=
  decidable_of_iff _ balanced_iff_take.symm

/-- The name of a column between `$(` and `)`. -/
structure IsColumnName (s : List Char) : Prop where
  ne_nil : s ≠ []
  trimmed : Text.trim s = s
  balanced : Balanced s

theorem isColumnName_iff {s : List Char} :
    IsColumnName s ↔ s ≠ [] ∧ Text.trim s = s ∧ Balanced s :=
  ⟨fun h => ⟨h.ne_nil, h.trimmed, h.balanced⟩, fun h => ⟨h.1, h.2.1, h.2.2⟩⟩

instance (s : List Char) : Decidable (IsColumnName s) :=
  decidable_of_iff _ isColumnName_iff.symm

/-- The text of a number, which begins with a digit or a point.  A sign in it is that of an exponent
and follows its letter and a digit. -/
structure IsNumber (s : List Char) : Prop where
  reads : (Decimal.read? s).isSome = true
  head : s.head?.any (fun c => c.isDigit || c == '.') = true
  sign : ∀ x c y, s = x ++ c :: y → c = '+' ∨ c = '-' →
    ∃ x' d e, x = x' ++ [d, e] ∧ d.isDigit = true ∧ (e = 'e' ∨ e = 'E')

/-- The name of a function in a call. -/
structure IsCallable (s : List Char) : Prop where
  identifier : isIdentifier s = true
  ne_or : s ≠ "or".toList
  ne_and : s ≠ "and".toList

/-! ## Nodes -/

/-- For a tag of a binary operator its level and the levels of its operands. -/
def Tag.levels? : Tag → Option (Level × Level × Level)
  | disjunction => some (.disjunction, .disjunction, .conjunction)
  | conjunction => some (.conjunction, .conjunction, .comparison)
  | le | lt | ge | gt | equal | unequal => some (.comparison, .sum, .sum)
  | sum | difference => some (.sum, .sum, .product)
  | product | quotient => some (.product, .product, .unary)
  | power => some (.power, .indexed, .unary)
  | _ => none

theorem Tag.rank_of_levels? {tag : Tag} {l left right : Level}
    (h : tag.levels? = some (l, left, right)) : Level.power.rank ≤ l.rank := by
  cases tag <;> simp only [levels?, reduceCtorEq, Option.some.injEq, Prod.mk.injEq] at h <;>
    obtain ⟨rfl, -⟩ := h <;> decide

/-- The next tighter level. -/
def Level.tighter? : Level → Option Level
  | expression => some .disjunction
  | disjunction => some .conjunction
  | conjunction => some .comparison
  | comparison => some .sum
  | sum => some .product
  | product => some .unary
  | unary => some .power
  | power => some .indexed
  | indexed => some .primary
  | primary => none

theorem Level.rank_of_tighter? {l m : Level} (h : l.tighter? = some m) : l.rank = m.rank + 1 := by
  cases l <;> simp only [tighter?, Option.some.injEq, reduceCtorEq] at h <;> subst h <;> rfl

/-- The trees of a level. -/
inductive Shaped : Level → Ast → Prop where
  /-- A tree of a tighter level. -/
  | loosen {l m : Level} {a : Ast} : l.tighter? = some m → Shaped m a → Shaped l a
  /-- An operator between two operands. -/
  | binary {tag : Tag} {l left right : Level} {a b : Ast} :
      tag.levels? = some (l, left, right) → Shaped left a → Shaped right b →
        Shaped l (.node tag [a, b])
  | negation {a : Ast} : Shaped .unary a → Shaped .unary (.node .negation [a])
  /-- An index on anything but parentheses. -/
  | index {a k : Ast} : Shaped .indexed a → (∀ cs, a ≠ .node .parentheses cs) →
      Shaped .expression k → Shaped .indexed (.node .index [a, k])
  | indexParentheses {a k : Ast} : Shaped .expression a → Shaped .expression k →
      Shaped .indexed (.node .indexParentheses [.node .parentheses [a], k])
  | parentheses {a : Ast} : Shaped .expression a → Shaped .primary (.node .parentheses [a])
  | call {name : String} {args : List Ast} : IsCallable name.toList →
      (∀ a ∈ args, Shaped .expression a) → Shaped .primary (.node .call (.token name :: args))
  | column {name : String} : IsColumnName name.toList → Shaped .primary (.leaf .column name)
  | text {s : String} : Shaped .primary (.leaf .text s)
  | number {s : String} : IsNumber s.toList → Shaped .primary (.leaf .number s)
  | trueLiteral : Shaped .primary (.node .trueLiteral [])
  | falseLiteral : Shaped .primary (.node .falseLiteral [])
  | euler : Shaped .primary (.node .euler [])

theorem Level.eq_of_rank_eq {l m : Level} (h : l.rank = m.rank) : l = m := by
  cases l <;> cases m <;> first | rfl | exact absurd h (by decide)

/-- What a level hands on to the next looser one gets to all looser ones. -/
theorem Level.loosen_induction {P : Level → Prop}
    (hloosen : ∀ {l m : Level}, l.tighter? = some m → P m → P l) {l m : Level} (hl : P l)
    (hle : l.rank ≤ m.rank) : P m := by
  rcases Nat.eq_or_lt_of_le hle with heq | hlt
  · exact Level.eq_of_rank_eq heq ▸ hl
  · obtain ⟨n, hn⟩ : ∃ n, m.tighter? = some n := by
      cases m <;> first | exact ⟨_, rfl⟩ | exact absurd hlt (Nat.not_lt_zero _)
    have hrank := Level.rank_of_tighter? hn
    exact hloosen hn (Level.loosen_induction hloosen hl (by omega))
termination_by m.rank
decreasing_by omega

/-- A level takes in all tighter ones. -/
theorem Shaped.mono {l m : Level} {a : Ast} (h : Shaped l a) (hle : l.rank ≤ m.rank) :
    Shaped m a :=
  Level.loosen_induction (P := fun l => Shaped l a) .loosen h hle

end ColumnTree.Formula
