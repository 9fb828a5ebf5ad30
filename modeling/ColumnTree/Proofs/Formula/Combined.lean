/-
# Formulas put together from formulas

Reading is compositional.  Any formula in parentheses is an operand (`Operand`): nothing in it is
mistaken for a part of what stands around it, since every formula is whole.  So what an operator, a
sign, an index or a call puts together from formulas is read as the tree that is put together from
theirs, whatever they look like.
-/
import ColumnTree.Proofs.Formula.Composed
import ColumnTree.Proofs.Formula.Contained

namespace ColumnTree.Formula

variable {l m left right : Level} {x y : List Char} {a b : Ast}

/-! ## Operands -/

/-- A text that has the form of a level, and is read there as a tree. -/
structure Operand (l : Level) (x : List Char) (a : Ast) : Prop where
  spelled : ∃ ms, Spelled l x ms
  read : parseAt ⟨l, x⟩ = .ok a

namespace Operand

theorem mono (h : Operand l x a) (hle : l.rank ≤ m.rank) : Operand m x a := by
  obtain ⟨ms, hms⟩ := h.spelled
  exact ⟨⟨ms, hms.mono hle⟩, (hms.parseAt_of_le hle).trans h.read⟩

/-- Nothing is looser than a formula. -/
theorem parse_eq {s : String} (h : Operand l s.toList a) : parse s = .ok a :=
  (h.mono (m := .expression) (by cases l <;> decide)).read

theorem parentheses (h : parseAt ⟨.expression, x⟩ = .ok a) (l : Level) :
    Operand l ('(' :: x ++ [')']) (.node .parentheses [a]) := by
  have hx := (whole_of_parseAt h).nested
  refine mono (l := .primary) ⟨?_, parseAt_parentheses hx h⟩ (Nat.zero_le _)
  exact ⟨_, Spelled.parentheses hx⟩

theorem binary {tag : Tag} {op : String} (hx : Operand left x a) (hy : Operand right y b)
    (htag : tag.levels? = some (l, left, right)) (hop : tag.operator? = some op) :
    Operand l (x ++ ' ' :: op.toList ++ ' ' :: y) (.node tag [a, b]) := by
  obtain ⟨ms, hms⟩ := hx.spelled
  obtain ⟨ns, hns⟩ := hy.spelled
  exact ⟨⟨_, hms.binary hns htag hop⟩, hms.parseAt_binary hns htag hop hx.read hy.read⟩

theorem negation (h : Operand .unary x a) : Operand .unary ('-' :: x) (.node .negation [a]) := by
  obtain ⟨ms, hms⟩ := h.spelled
  exact ⟨⟨_, hms.negation⟩, hms.parseAt_negation h.read⟩

/-- The index of something in parentheses. -/
theorem index (hx : parseAt ⟨.expression, x⟩ = .ok a) (hy : parseAt ⟨.expression, y⟩ = .ok b) :
    Operand .indexed ('(' :: x ++ [')'] ++ '[' :: y ++ [']'])
      (.node .indexParentheses [.node .parentheses [a], b]) := by
  obtain ⟨ms, hms⟩ := (parentheses hx .indexed).spelled
  have hnested := (whole_of_parseAt hy).nested
  exact ⟨⟨_, hms.index hnested⟩,
    parseAt_indexParentheses (whole_of_parseAt hx).nested hnested hx hy⟩

end Operand

/-! ## Arguments -/

theorem trim_ne_nil_of_parseAt (h : parseAt ⟨.expression, x⟩ = .ok a) : Text.trim x ≠ [] := by
  intro hblank
  obtain ⟨s, hs, -⟩ := split_of_parseAt h
  simp [split, splitExpression, hblank] at hs

/-- Formulas with commas between them are cut at these commas only. -/
theorem argumentPieces_join {xs : List (List Char)}
    (h : ∀ x ∈ xs, ∃ a, parseAt ⟨.expression, x⟩ = .ok a) :
    argumentPieces (Text.join [','] xs) = .ok (xs.map fun x => ⟨.expression, x⟩) := by
  cases xs with
  | nil => rfl
  | cons x xs =>
      obtain ⟨a, ha⟩ := h x (List.mem_cons_self ..)
      obtain ⟨ms, hms, hpieces⟩ := @exists_commaPieces [] x xs (by decide)
        (fun y hy => whole_of_parseAt (h y hy).choose_spec) []
      refine argumentPieces_eq_ok_iff.2 ?_
      rw [if_neg (trim_join_ne_nil (trim_ne_nil_of_parseAt ha))]
      refine ⟨ms, ⟨false, hms⟩, ?_⟩
      rw [hpieces]
      simp

theorem Operand.call {name : String} {xs : List (List Char)} {as : List Ast}
    (hname : IsCallable name.toList)
    (h : xs.map (fun x => parseAt ⟨.expression, x⟩) = as.map .ok) :
    Operand .primary (name.toList ++ '(' :: Text.join [','] xs ++ [')'])
      (.node .call (.token name :: as)) := by
  have hread : ∀ x ∈ xs, ∃ a, parseAt ⟨.expression, x⟩ = .ok a := by
    intro x hx
    have hmem : parseAt ⟨.expression, x⟩ ∈ as.map Except.ok := h ▸ List.mem_map_of_mem hx
    obtain ⟨a, -, ha⟩ := List.mem_map.1 hmem
    exact ⟨a, ha.symm⟩
  have hnested : Nested (Text.join [','] xs) :=
    Nested.join (by decide) fun x hx => (whole_of_parseAt (hread x hx).choose_spec).nested
  have hident := List.all_eq_true.1 (Bool.and_eq_true_iff.1 hname.identifier).2
  refine ⟨⟨_, Spelled.enclosed hident hname.ne_or hname.ne_and hnested⟩, ?_⟩
  exact parseAt_call hname hnested (argumentPieces_join hread) (by rw [List.map_map]; exact h)

/-! ## Formulas -/

theorem Tag.exists_levels? {tag : Tag} {op : String} (h : tag.operator? = some op) :
    ∃ l left right, tag.levels? = some (l, left, right) := by
  cases tag <;> first | exact ⟨_, _, _, rfl⟩ | cases h

/-- The tree of a text that is put together from formulas is put together from their trees. -/
theorem parse_combined :
    (∀ (t u : String) (a b : Ast), parse t = .ok a → parse u = .ok b →
      parse ("(" ++ t ++ ")") = .ok (.node .parentheses [a]) ∧
      (∀ (tag : Tag) (op : String), tag.operator? = some op →
        parse ("(" ++ t ++ ") " ++ op ++ " (" ++ u ++ ")") =
          .ok (.node tag [.node .parentheses [a], .node .parentheses [b]])) ∧
      parse ("-(" ++ t ++ ")") = .ok (.node .negation [.node .parentheses [a]]) ∧
      parse ("(" ++ t ++ ")[" ++ u ++ "]") =
        .ok (.node .indexParentheses [.node .parentheses [a], b])) ∧
    ∀ (f : String) (ts : List String) (as : List Ast), isIdentifier f.toList = true →
      f ≠ "or" → f ≠ "and" → ts.map parse = as.map .ok →
        parse (f ++ "(" ++ ",".intercalate ts ++ ")") = .ok (.node .call (.token f :: as)) := by
  constructor
  · intro t u a b ht hu
    have hleft := Operand.parentheses ht
    have hright := Operand.parentheses hu
    refine ⟨?_, fun tag op hop => ?_, ?_, ?_⟩
    · refine (?_ : Operand .primary _ _).parse_eq
      simpa using hleft .primary
    · obtain ⟨l, left, right, htag⟩ := Tag.exists_levels? hop
      refine (?_ : Operand l _ _).parse_eq
      simpa using (hleft left).binary (hright right) htag hop
    · refine (?_ : Operand .unary _ _).parse_eq
      simpa using (hleft .unary).negation
    · refine (?_ : Operand .indexed _ _).parse_eq
      simpa using Operand.index ht hu
  · intro f ts as hident hor hand hts
    have hname : IsCallable f.toList :=
      ⟨hident, fun h => hor (String.toList_inj.1 h), fun h => hand (String.toList_inj.1 h)⟩
    have hcall := @Operand.call f (ts.map String.toList) as hname (by rw [List.map_map]; exact hts)
    refine (?_ : Operand .primary _ _).parse_eq
    rw [Text.join_eq_intercalate] at hcall
    simpa [String.toList_intercalate] using hcall

theorem parse_combined_quoted :
    parse "(\"),(\") - ($(a, [b))" = .ok (.node .difference
      [.node .parentheses [.leaf .text "),("], .node .parentheses [.leaf .column "a, [b"]]) ∧
    parse "max(\"),(\",$(a, [b))" =
      .ok (.node .call [.token "max", .leaf .text "),(", .leaf .column "a, [b"]) := by
  have ht : parse "\"),(\"" = .ok (.leaf .text "),(") := by cbv
  have hu : parse "$(a, [b)" = .ok (.leaf .column "a, [b") := by cbv
  constructor
  · exact (parse_combined.1 _ _ _ _ ht hu).2.1 .difference "-" rfl
  · refine parse_combined.2 "max" ["\"),(\"", "$(a, [b)"] [.leaf .text "),(", .leaf .column "a, [b"]
      (by decide) (by decide) (by decide) ?_
    rw [List.map_cons, List.map_singleton, ht, hu]
    rfl

end ColumnTree.Formula
