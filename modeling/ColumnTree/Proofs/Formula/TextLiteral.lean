/-
# Texts in quotes

A text that begins with a quote is one literal just if the literal that this quote opens is the whole
text: the scanner is inside all the way, and leaves with the last character (`ClosedByLast`).  The
reader does not go by the flag of the scanner.  It looks for the first quote with an even number of
backslashes in front of it, and then undoes the escapes pair by pair.  All three agree on every text
that is accepted (`readsQuoted_of_scan`), and every text has a literal in either kind of quotes
(`quotes_agree`).

The blanks around an operand are no part of it, so what is read is the trimmed text.
-/
import ColumnTree.Proofs.Formula.Composed
import ColumnTree.Proofs.Formula.Rescanned

namespace ColumnTree.Formula

/-! ## Literals as the scanner sees them -/

/-- Behind `x` the scanner is in a literal between quotes `q`, with this flag. -/
def InLiteral (x : List Char) (q : Char) (escaped : Bool) : Prop :=
  ∃ ms stack, Reads .start x ms ⟨.quoted q escaped, stack⟩

/-- The literal that the first character of a text opens is closed by the last one. -/
structure ClosedByLast (q : Char) (t : List Char) : Prop where
  opens : t.head? = some q
  /-- The scanner is in the literal wherever the text is divided. -/
  inside : ∀ x y, t = x ++ y → x ≠ [] → y ≠ [] → ∃ e, InLiteral x q e
  /-- In the end it is in plain text. -/
  accepted : Scannable t

/-- How a text is read that begins with a quote. -/
structure ReadsQuoted (q : Char) (t : List Char) (marks : List Mark) : Prop where
  /-- Wherever the scanner is in a literal, its flag is up just if the number of backslashes in front
  is odd. -/
  flag : ∀ c ∈ cuts marks, ∀ p e, InLiteral c.left p e → isEscaped c.before = e
  /-- The text is read as a literal just if it is one. -/
  literal : (∃ v, parseAt ⟨.primary, t⟩ = .ok (.leaf .text v)) ↔ ClosedByLast q (Text.trim t)
  /-- Then it stands for what the pairs between the quotes stand for. -/
  value : ∀ v, parseAt ⟨.primary, t⟩ = .ok (.leaf .text v) →
    Escaped q (inside (Text.trim t)) v.toList
  /-- Any other text is refused for what stands behind the literal. -/
  refused : ¬ ClosedByLast q (Text.trim t) →
    parseAt ⟨.primary, t⟩ = .error (.afterText (String.ofList (Text.trim t)))

/-- Backslashes are counted as the scanner sees them, in every literal. -/
theorem InLiteral.isEscaped_eq {t : List Char} {marks : List Mark} {c : Cut} {q : Char} {e : Bool}
    (h : InLiteral c.left q e) (hscan : scan t = .ok marks) (hc : c ∈ cuts marks) :
    isEscaped c.before = e := by
  obtain ⟨ms, stack, hleft⟩ := h
  obtain ⟨d, hreads⟩ := Scans.of_mem_cuts hscan hc
  obtain ⟨s, hbefore, -⟩ := hreads.cut
  rw [textOf_unplaced] at hbefore
  obtain ⟨-, rfl⟩ := hbefore.unique hleft
  have hstart : ScanState.start.Flagged [] := fun _ _ hmode => nomatch hmode
  have hflag := hbefore.flagged hstart q e rfl
  rwa [List.append_nil, ← List.map_reverse, List.reverse_reverse, isEscaped_unplaced] at hflag

section Quotes

variable {q : Char} (hq : q = '"' ∨ q = '\'')

include hq

/-- A text that is one literal is two quotes around the inside of one. -/
theorem closedByLast_iff {t : List Char} :
    ClosedByLast q t ↔ ∃ x v, t = q :: (x ++ [q]) ∧ Escaped q x v := by
  constructor
  · intro h
    obtain ⟨r, rfl⟩ := List.head?_eq_some_iff.1 h.opens
    obtain ⟨ms, d, hreads⟩ := h.accepted
    cases hreads with
    | cons hstep hrest =>
        obtain ⟨rfl, rfl⟩ :=
          Prod.mk.inj (Except.ok.inj (hstep.symm.trans (step_quote hq false [])))
        obtain ⟨x, v, y, ks, rfl, hx, -, -⟩ := hrest.exists_escaped
        have hx : Escaped q x v := hx
        -- Behind the quote that closes the literal the scanner is in plain text.
        have hend : y = [] := by
          by_contra hy
          obtain ⟨e, ns, stack, hns⟩ := h.inside (q :: (x ++ [q])) y (by simp) (by simp) hy
          cases ((Reads.literal hq hx []).unique hns).2
        exact ⟨x, v, by rw [hend], hx⟩
  · rintro ⟨x, v, rfl, hx⟩
    refine ⟨rfl, ?_, _, false, Reads.literal hq hx []⟩
    intro y z heq hy hz
    obtain ⟨c, y, rfl⟩ := List.exists_cons_of_ne_nil hy
    obtain ⟨rfl, hrest⟩ := List.cons.inj heq
    obtain ⟨z, c, rfl⟩ := List.eq_nil_or_concat z |>.resolve_left hz
    have hrest : x ++ [q] = (y ++ z) ++ [c] := by
      rw [List.append_assoc, ← List.concat_eq_append (a := c)]
      exact hrest
    obtain ⟨ms, e, hms⟩ := hx.exists_reads_of_append (List.append_inj' hrest rfl).1 []
    exact ⟨e, _, [], .cons (step_quote hq false []) hms⟩

/-! ## Literals as the reader sees them -/

theorem splitText_of_not_closedByLast {t : List Char} (hhead : t.head? = some q)
    (hscan : Scannable t) (h : ¬ ClosedByLast q t) :
    splitText q t = .error (.afterText (String.ofList t)) := by
  cases hsplit : splitText q t with
  | ok s =>
      obtain ⟨x, v, ht, hx, -⟩ := (splitText_eq_ok_iff_escaped hq hhead).1 hsplit
      exact absurd ((closedByLast_iff hq).2 ⟨x, v, ht, hx⟩) h
  | error f =>
      obtain ⟨marks, hmarks⟩ := scannable_iff.1 hscan
      simp only [splitText, hmarks] at hsplit
      split at hsplit
      · cases hsplit
      · exact hsplit.symm

/-- A literal is read as what it stands for, also as a whole formula. -/
theorem parse_literal {x v : List Char} (h : Escaped q x v) :
    parse (String.ofList (q :: (x ++ [q]))) = .ok (.leaf .text (String.ofList v)) := by
  have hlevel : Level.primary.rank ≤ Level.expression.rank := by decide
  rw [parse, String.toList_ofList, (Spelled.literal hq h).parseAt_of_le hlevel]
  exact parseAt_of_split (p := ⟨.primary, _⟩) (split_literal hq h)

variable {t : List Char} (hhead : t.head? = some q)

include hhead

theorem head?_trim_quote : (Text.trim t).head? = some q := by
  refine Text.head?_trim ?_ hhead
  rcases hq with rfl | rfl <;> rfl

theorem split_of_head? : split .primary t = splitText q (Text.trim t) :=
  split_quote hq (head?_trim_quote hq hhead)

/-- The texts that are read as the literal of a text. -/
theorem parseAt_eq_text_iff {v : String} :
    parseAt ⟨.primary, t⟩ = .ok (.leaf .text v) ↔
      ∃ x, Text.trim t = q :: (x ++ [q]) ∧ Escaped q x v.toList := by
  have htrim := head?_trim_quote hq hhead
  have hsplit := split_of_head? hq hhead
  constructor
  · intro h
    obtain ⟨s, hs, htree⟩ := split_of_parseAt h
    obtain ⟨x, w, ht, hx, rfl⟩ := (splitText_eq_ok_iff_escaped hq htrim).1 (hsplit.symm.trans hs)
    obtain rfl : String.ofList w = v := by
      obtain ⟨-, hvalue⟩ := Ast.node.inj (Except.ok.inj htree)
      exact Ast.token.inj (List.cons.inj hvalue).1
    exact ⟨x, ht, by rwa [String.toList_ofList]⟩
  · rintro ⟨x, ht, hx⟩
    have hok := (splitText_eq_ok_iff_escaped hq htrim).2 ⟨x, _, ht, hx, rfl⟩
    rw [String.ofList_toList] at hok
    exact parseAt_of_split (p := ⟨.primary, t⟩) (hsplit.trans hok)

/-- The scanner, the search for the closing quote and the escapes agree on a text. -/
theorem readsQuoted_of_scan {marks : List Mark} (hscan : scan t = .ok marks) :
    ReadsQuoted q t marks where
  flag := fun c hc p e h => h.isEscaped_eq hscan hc
  literal := by
    rw [closedByLast_iff hq]
    constructor
    · rintro ⟨v, hv⟩
      obtain ⟨x, ht, hx⟩ := (parseAt_eq_text_iff hq hhead).1 hv
      exact ⟨x, _, ht, hx⟩
    · rintro ⟨x, v, ht, hx⟩
      exact ⟨String.ofList v, (parseAt_eq_text_iff hq hhead).2 ⟨x, ht, by rwa [String.toList_ofList]⟩⟩
  value := by
    intro v hv
    obtain ⟨x, ht, hx⟩ := (parseAt_eq_text_iff hq hhead).1 hv
    rwa [ht, inside_cons_append]
  refused := by
    intro h
    have haccepted : Scannable (Text.trim t) := (scannable_iff.2 ⟨marks, hscan⟩).trim
    have hfault := splitText_of_not_closedByLast hq (head?_trim_quote hq hhead) haccepted h
    exact parseAt_of_split_error (p := ⟨.primary, t⟩) ((split_of_head? hq hhead).trans hfault)

end Quotes

/-! ## Literals for all texts -/

/-- The literal of a text in quotes of a kind, in which these quotes and backslashes are escaped. -/
def literal (q : Char) (s : List Char) : List Char :=
  q :: (s.flatMap (escapeIn q) ++ [q])

/-- Texts that begin with a quote are read as the scanner sees them, and every text has a literal in
either kind of quotes. -/
theorem quotes_agree {q : Char} (hq : q = '"' ∨ q = '\'') :
    (∀ t marks, t.head? = some q → scan t = .ok marks → ReadsQuoted q t marks) ∧
      ∀ v : String, parse (String.ofList (literal q v.toList)) = .ok (.leaf .text v) := by
  constructor
  · intro t marks hhead hscan
    exact readsQuoted_of_scan hq hhead hscan
  · intro v
    have hparse := parse_literal hq (escaped_escapeIn hq v.toList)
    rwa [String.ofList_toList] at hparse

/-- A quote behind three backslashes is escaped, and one behind two closes the literal.  The literal
of a text with an apostrophe and a backslash is read as that text. -/
theorem quotes_agree_apostrophe :
    (∃ marks, scan "'\\\\\\''".toList = .ok marks ∧
      ReadsQuoted '\'' "'\\\\\\''".toList marks ∧ ClosedByLast '\'' "'\\\\\\''".toList) ∧
    (∃ marks, scan "'\\\\''b'".toList = .ok marks ∧
      ReadsQuoted '\'' "'\\\\''b'".toList marks ∧ ¬ ClosedByLast '\'' "'\\\\''b'".toList) ∧
    parse (String.ofList (literal '\'' "it's \\".toList)) = .ok (.leaf .text "it's \\") := by
  have hq : '\'' = '"' ∨ '\'' = '\'' := .inr rfl
  obtain ⟨hreads, hliteral⟩ := quotes_agree hq
  refine ⟨⟨_, rfl, hreads _ _ rfl rfl, ?_⟩, ⟨_, rfl, hreads _ _ rfl rfl, ?_⟩, hliteral _⟩
  · exact (closedByLast_iff hq).2 ⟨_, _, rfl, .pair (.pair .nil)⟩
  · intro hclosed
    obtain ⟨e, ms, stack, hms⟩ :=
      hclosed.inside "'\\\\'".toList "'b'".toList rfl (by decide) (by decide)
    cases ((Reads.literal hq (.pair .nil) []).unique hms).2

end ColumnTree.Formula
