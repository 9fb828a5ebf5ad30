/-
# Reading and writing

The reader accepts the trees of the grammar and no others: what it reads is `Shaped`
(`shaped_of_parseAt`), and what is written for a `Shaped` tree is read as that tree
(`parseAt_write`).  Here both are said of whole texts.
-/
import ColumnTree.Proofs.Formula.ReadBack
import ColumnTree.Proofs.Formula.Sound

namespace ColumnTree.Formula

variable {t : String} {a b : Ast}

/-- What is read is a tree of the grammar. -/
theorem shaped_of_parse (h : parse t = .ok a) : Shaped .expression a :=
  shaped_of_parseAt (p := ⟨_, _⟩) (sifted_of_rank (by decide)) h

theorem ne_empty_of_parse (h : parse t = .ok a) : t ≠ "" := by
  rintro rfl
  have hempty : parse "" = .error .emptyExpression := by cbv
  cases hempty.symm.trans h

/-- A tree of the grammar is read back from its text. -/
theorem parse_render (h : Shaped .expression a) : parse a.render = .ok a := by
  rw [parse, Ast.render, String.toList_ofList]
  exact parseAt_write h

/-- The trees of the grammar are those that some text is read as. -/
theorem shaped_iff_exists_parse : Shaped .expression a ↔ ∃ t, parse t = .ok a := by
  constructor
  · intro h
    exact ⟨a.render, parse_render h⟩
  · rintro ⟨t, h⟩
    exact shaped_of_parse h

/-- Different trees of the grammar have different texts. -/
theorem eq_of_write_eq (ha : Shaped .expression a) (hb : Shaped .expression b)
    (h : a.write = b.write) : a = b := by
  have hread := parseAt_write ha
  rw [h, parseAt_write hb] at hread
  exact (Except.ok.inj hread).symm

/-- The reader accepts exactly the grammar, and writing a tree is undone by reading it. -/
theorem parse_sound_and_complete :
    (∀ t a, parse t = .ok a → Shaped .expression a) ∧
      (∀ a, Shaped .expression a → parse a.render = .ok a) ∧
      ∀ t a, parse t = .ok a → parse a.render = .ok a := by
  refine ⟨fun t a h => shaped_of_parse h, fun a h => parse_render h, fun t a h => ?_⟩
  exact parse_render (shaped_of_parse h)

/-- A difference of a column and a power: its text, and the three parts for it. -/
theorem parse_sound_and_complete_difference :
    let a : Ast := .node .difference
      [.leaf .column "a(b)", .node .power [.leaf .number "2.5", .node .negation [.node .euler []]]]
    a.render = "$(a(b)) - 2.5 ** -e" ∧ Shaped .expression a ∧
      parse "$(a(b)) - 2.5 ** -e" = .ok a ∧ parse a.render = .ok a := by
  intro a
  have hcolumn : Shaped .primary (.leaf .column "a(b)") := .column (by decide)
  have hnumber : Shaped .primary (.leaf .number "2.5") :=
    .number (isNumber_of_notMem rfl (by decide) (by decide))
  have hpower : Shaped .power (.node .power [.leaf .number "2.5", .node .negation [.node .euler []]]) :=
    .binary rfl (hnumber.mono (by decide)) (.negation (Shaped.euler.mono (by decide)))
  have ha : Shaped .expression a :=
    Shaped.mono (l := .sum) (.binary rfl (hcolumn.mono (by decide)) (hpower.mono (by decide)))
      (by decide)
  have hrender : a.render = "$(a(b)) - 2.5 ** -e" := by decide
  have hread := parse_sound_and_complete.2.1 a ha
  refine ⟨hrender, parse_sound_and_complete.1 _ a hread, hrender ▸ hread, ?_⟩
  exact parse_sound_and_complete.2.2 _ a hread

end ColumnTree.Formula
