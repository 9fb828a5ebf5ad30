/-
# Escapes in text literals

Three times the reader has to know what a backslash does in a text literal, and it finds out in three
ways: the scanner goes from left to right and carries a flag; the search for the quote that closes the
literal counts the backslashes in front of each one; and what the literal stands for is read pair by
pair.

The flag and the count are the same at every place in a literal (`Reads.flagged`).  `Escaped q x v` says
without any of the three what the inside of a literal is and what it stands for.  A literal that the
scanner leaves again begins with such an inside (`Reads.exists_escaped`), the search finds the quote
behind it (`Escaped.find?_closing`), and the pairs are read as it says (`Escaped.unescape_eq`).  So a text
is read as a literal just if nothing follows that quote (`splitText_eq_ok_iff_escaped`).
-/
import ColumnTree.Formula.Printer
import ColumnTree.Proofs.Formula.Levels

namespace ColumnTree.Formula

@[simp] theorem inside_cons_append (a b : Char) (s : List Char) : inside (a :: (s ++ [b])) = s := by
  simp [inside]

/-! ## The flag and the count -/

theorem isEscaped_cons_of_ne {m : Mark} {ms : List Mark} (h : m.char ≠ '\\') :
    isEscaped (m :: ms) = false := by
  simp [isEscaped, h]

theorem isEscaped_slash (top : Bool) (ms : List Mark) :
    isEscaped (.of '\\' top :: ms) = !isEscaped ms := by
  simp only [isEscaped, List.takeWhile_cons, Mark.char_of, beq_self_eq_true, if_true,
    List.length_cons]
  generalize (ms.takeWhile fun m => m.char == '\\').length = n
  rcases Nat.mod_two_eq_zero_or_one n with hn | hn <;> simp [Nat.add_mod, hn]

/-- What is behind an escaped character is not escaped. -/
theorem isEscaped_cons_of_isEscaped {c : Char} {top : Bool} {ms : List Mark}
    (h : isEscaped ms = true) : isEscaped (.of c top :: ms) = false := by
  rcases Decidable.em (c = '\\') with rfl | hc
  · rw [isEscaped_slash, h, Bool.not_true]
  · exact isEscaped_cons_of_ne hc

/-- If a state is one inside a literal, then its flag is what the backslashes in front say. -/
def ScanState.Flagged (s : ScanState) (before : List Mark) : Prop :=
  ∀ q e, s.mode = .quoted q e → isEscaped before = e

theorem ScanState.Flagged.step {s s' : ScanState} {before : List Mark} {o : Nat} {c : Char}
    {top : Bool} (hs : s.Flagged before) (h : s.step o c = .ok (s', top)) :
    s'.Flagged (.of c top :: before) := by
  obtain ⟨mode, stack⟩ := s
  intro q e hmode
  cases mode with
  | name depth =>
      simp only [ScanState.step] at h
      generalize (if c = '(' then depth + 1 else if c = ')' then depth - 1 else depth) = n at h
      split at h <;>
      · obtain ⟨rfl, -⟩ := Prod.mk.inj (Except.ok.inj h)
        cases hmode
  | plain dollar =>
      simp only [ScanState.step, stepPlain] at h
      repeat' split at h
      case isFalse.isTrue hquote =>
        -- The literal begins here, and a quote is no backslash.
        obtain ⟨rfl, -⟩ := Prod.mk.inj (Except.ok.inj h)
        obtain ⟨-, rfl⟩ := ScanMode.quoted.inj hmode
        refine isEscaped_cons_of_ne ?_
        rintro rfl
        cases hquote
      all_goals
        first
        | obtain ⟨rfl, -⟩ := Prod.mk.inj (Except.ok.inj h)
          cases hmode
        | cases h
  | quoted quote escaped =>
      have hbefore : isEscaped before = escaped := hs quote escaped rfl
      simp only [ScanState.step] at h
      split at h
      · next hescaped =>
        obtain ⟨rfl, rfl⟩ := Prod.mk.inj (Except.ok.inj h)
        obtain ⟨-, rfl⟩ := ScanMode.quoted.inj hmode
        exact isEscaped_cons_of_isEscaped (hbefore.trans hescaped)
      · next hplain =>
        rw [Bool.not_eq_true] at hplain
        split at h
        · next hc =>
          obtain ⟨rfl, rfl⟩ := Prod.mk.inj (Except.ok.inj h)
          obtain ⟨-, rfl⟩ := ScanMode.quoted.inj hmode
          rw [hc, isEscaped_slash, hbefore, hplain, Bool.not_false]
        · next hc =>
          split at h
          · obtain ⟨rfl, -⟩ := Prod.mk.inj (Except.ok.inj h)
            cases hmode
          · obtain ⟨rfl, rfl⟩ := Prod.mk.inj (Except.ok.inj h)
            obtain ⟨-, rfl⟩ := ScanMode.quoted.inj hmode
            exact isEscaped_cons_of_ne hc

/-- Wherever the scanner is in a literal, its flag is what the backslashes in front say. -/
theorem Reads.flagged {s s' : ScanState} {x : List Char} {ms before : List Mark}
    (h : Reads s x ms s') (hs : s.Flagged before) : s'.Flagged (ms.reverse ++ before) := by
  induction h generalizing before with
  | nil => exact hs
  | cons hstep _ ih =>
      rw [List.reverse_cons, List.append_assoc]
      exact ih (hs.step hstep)

/-! ## The inside of a literal -/

/-- What a backslash makes of the character behind it. -/
def meaning (c : Char) : Char :=
  if c = 'n' then '\n' else if c = 't' then '\t' else c

/-- Between two quotes `x` stands for `v`: a backslash takes the character behind it with it, whatever
that is, and no other character is such a quote. -/
inductive Escaped (q : Char) : List Char → List Char → Prop where
  | nil : Escaped q [] []
  | plain {c : Char} {x v : List Char} :
      c ≠ '\\' → c ≠ q → Escaped q x v → Escaped q (c :: x) (c :: v)
  | pair {c : Char} {x v : List Char} :
      Escaped q x v → Escaped q ('\\' :: c :: x) (meaning c :: v)

/-- One character inside a literal between quotes of a kind. -/
def escapeIn (q c : Char) : List Char :=
  if c = '\\' ∨ c = q then ['\\', c] else [c]

/-- Escaping the quotes and the backslashes of a text makes it the inside of a literal. -/
theorem escaped_escapeIn {q : Char} (hq : q = '"' ∨ q = '\'') (s : List Char) :
    Escaped q (s.flatMap (escapeIn q)) s := by
  induction s with
  | nil => exact .nil
  | cons c s ih =>
      rw [List.flatMap_cons, escapeIn]
      split
      · next hc =>
        have hself : meaning c = c := by
          rcases hc with rfl | rfl
          · rfl
          · rcases hq with rfl | rfl <;> rfl
        have hpair := Escaped.pair (c := c) ih
        rwa [hself] at hpair
      · next hc =>
        rw [not_or] at hc
        exact .plain hc.1 hc.2 ih

namespace Escaped

variable {q : Char} {x v : List Char} (h : Escaped q x v)

include h

/-- Reading the pairs gives the text. -/
theorem unescape_eq : unescape x = v := by
  induction h with
  | nil => rfl
  | plain hc _ _ ih =>
      rw [unescape, ih]
      exact fun _ _ hslash => absurd hslash hc
  | pair _ ih =>
      rw [unescape, ih]
      rfl

/-- The scanner stays in the literal, and its flag is down in the end. -/
theorem reads (stack : List Char) :
    Reads ⟨.quoted q false, stack⟩ x (x.map (.of · false)) ⟨.quoted q false, stack⟩ := by
  induction h with
  | nil => exact .nil
  | plain hslash hquote _ ih =>
      refine .cons ?_ ih
      simp [ScanState.step, hslash, hquote]
  | pair _ ih => exact .cons rfl (.cons rfl ih)

/-- It is in the literal behind every part as well. -/
theorem exists_reads_of_append {y z : List Char} (hx : x = y ++ z) (stack : List Char) :
    ∃ ms e, Reads ⟨.quoted q false, stack⟩ y ms ⟨.quoted q e, stack⟩ := by
  induction h generalizing y with
  | nil =>
      obtain ⟨rfl, -⟩ := List.append_eq_nil_iff.1 hx.symm
      exact ⟨[], false, .nil⟩
  | @plain c x v hslash hquote _ ih =>
      cases y with
      | nil => exact ⟨[], false, .nil⟩
      | cons b y =>
          obtain ⟨rfl, hrest⟩ := List.cons.inj hx
          obtain ⟨ms, e, hms⟩ := ih hrest
          refine ⟨.of c false :: ms, e, .cons ?_ hms⟩
          simp [ScanState.step, hslash, hquote]
  | @pair c x v _ ih =>
      rcases y with _ | ⟨b, _ | ⟨b', y⟩⟩
      · exact ⟨[], false, .nil⟩
      · obtain ⟨hb, -⟩ := List.cons.inj hx
        rw [← hb]
        exact ⟨[.of '\\' false], true, .single rfl⟩
      · obtain ⟨hb, hx'⟩ := List.cons.inj hx
        obtain ⟨hb', hrest⟩ := List.cons.inj hx'
        obtain ⟨ms, e, hms⟩ := ih hrest
        rw [← hb, ← hb']
        exact ⟨_, e, .cons rfl (.cons rfl hms)⟩

/-- No quote in it counts as one that closes the literal. -/
theorem clear (hq : q ≠ '\\') {before : List Mark} (after : List Mark)
    (hbefore : isEscaped before = false) :
    Clear (fun c => c.mark.char == q && !isEscaped c.before) before (x.map (.of · false)) after := by
  induction h generalizing before with
  | nil => exact clear_nil
  | @plain c x v hslash hquote _ ih =>
      refine clear_cons.2 ⟨?_, ih (isEscaped_cons_of_ne hslash)⟩
      simp [hquote]
  | @pair c x v _ ih =>
      have hslash : isEscaped (.of '\\' false :: before) = true := by
        rw [isEscaped_slash, hbefore, Bool.not_false]
      refine clear_cons.2 ⟨?_, clear_cons.2 ⟨?_, ih (isEscaped_cons_of_isEscaped hslash)⟩⟩
      · simp [hq.symm]
      · simp [hslash]

/-- The search for the quote that closes the literal finds the one behind it. -/
theorem find?_closing (hq : q ≠ '\\') (ks : List Mark) :
    ((cuts (.of q false :: (x.map (.of · false) ++ .of q false :: ks))).drop 1).find?
        (fun c => c.mark.char == q && !isEscaped c.before) =
      some ⟨(x.map (.of · false)).reverse ++ [.of q false], .of q false, ks⟩ := by
  have hstart : ScanState.Flagged ⟨.quoted q false, []⟩ [.of q false] := by
    intro q' e hmode
    obtain ⟨-, rfl⟩ := ScanMode.quoted.inj hmode
    exact isEscaped_cons_of_ne hq
  have hend := (h.reads []).flagged hstart q false rfl
  rw [cuts, cutsFrom, List.drop_succ_cons, List.drop_zero]
  refine find?_cutsFrom (h.clear hq _ (hstart q false rfl)) ?_
  rw [hend, Mark.char_of, beq_self_eq_true]
  rfl

end Escaped

/-! ## Literals -/

/-- A literal that the scanner leaves again begins with the inside of one and a quote that closes it.
If the flag was up, then the first character of the inside belongs to a backslash in front. -/
theorem Reads.exists_escaped {q : Char} {e d : Bool} {r stack stack' : List Char} {ms : List Mark}
    (h : Reads ⟨.quoted q e, stack⟩ r ms ⟨.plain d, stack'⟩) :
    ∃ x v y ks, r = x ++ q :: y ∧ Escaped q (if e then '\\' :: x else x) v ∧
      ms = x.map (.of · false) ++ .of q false :: ks ∧
        Reads ⟨.plain false, stack⟩ y ks ⟨.plain d, stack'⟩ := by
  induction r generalizing e ms with
  | nil => cases h
  | cons c r ih =>
      cases h with
      | cons hstep hrest =>
          simp only [ScanState.step] at hstep
          split at hstep
          · next he =>
            obtain ⟨rfl, rfl⟩ := Prod.mk.inj (Except.ok.inj hstep)
            obtain ⟨x, v, y, ks, rfl, hx, rfl, hks⟩ := ih hrest
            rw [he]
            exact ⟨c :: x, _, y, ks, rfl, .pair hx, rfl, hks⟩
          · next he =>
            rw [Bool.not_eq_true] at he
            subst he
            split at hstep
            · next hc =>
              obtain ⟨rfl, rfl⟩ := Prod.mk.inj (Except.ok.inj hstep)
              obtain ⟨x, v, y, ks, rfl, hx, rfl, hks⟩ := ih hrest
              rw [hc]
              exact ⟨'\\' :: x, v, y, ks, rfl, hx, rfl, hks⟩
            · next hslash =>
              split at hstep
              · next hc =>
                obtain ⟨rfl, rfl⟩ := Prod.mk.inj (Except.ok.inj hstep)
                rw [hc]
                exact ⟨[], [], r, _, rfl, .nil, rfl, hrest⟩
              · next hquote =>
                obtain ⟨rfl, rfl⟩ := Prod.mk.inj (Except.ok.inj hstep)
                obtain ⟨x, v, y, ks, rfl, hx, rfl, hks⟩ := ih hrest
                exact ⟨c :: x, c :: v, y, ks, rfl, .plain hslash hquote hx, rfl, hks⟩

section Quotes

variable {q : Char} (hq : q = '"' ∨ q = '\'')

include hq

theorem quote_ne_slash : q ≠ '\\' := by
  rcases hq with rfl | rfl <;> decide

theorem step_quote (d : Bool) (stack : List Char) :
    ScanState.step ⟨.plain d, stack⟩ 0 q = .ok (⟨.quoted q false, stack⟩, false) := by
  rcases hq with rfl | rfl <;> cases d <;> rfl

/-- The scanner goes through a literal from plain text to plain text. -/
theorem Reads.literal {x v : List Char} (h : Escaped q x v) (stack : List Char) :
    Reads ⟨.plain false, stack⟩ (q :: (x ++ [q])) ((q :: (x ++ [q])).map (.of · false))
      ⟨.plain false, stack⟩ := by
  have hclose : ScanState.step ⟨.quoted q false, stack⟩ 0 q = .ok (⟨.plain false, stack⟩, false) := by
    simp [ScanState.step, quote_ne_slash hq]
  rw [List.map_cons, List.map_append]
  exact .cons (step_quote hq false stack) ((h.reads stack).append (.single hclose))

/-- A text that begins with a quote is read as a literal just if what stands between its first and its
last character is the inside of one. -/
theorem splitText_eq_ok_iff_escaped {t : List Char} {s : Step} (hhead : t.head? = some q) :
    splitText q t = .ok s ↔ ∃ x v, t = q :: (x ++ [q]) ∧ Escaped q x v ∧
      s = .done (.leaf .text (String.ofList v)) := by
  constructor
  · intro h
    obtain ⟨ms, ⟨d, hreads⟩, hclose, rfl⟩ := splitText_eq_ok_iff.1 h
    obtain ⟨r, rfl⟩ := List.head?_eq_some_iff.1 hhead
    cases hreads with
    | cons hstep hrest =>
        obtain ⟨rfl, rfl⟩ :=
          Prod.mk.inj (Except.ok.inj (hstep.symm.trans (step_quote hq false [])))
        obtain ⟨x, v, y, ks, rfl, hx, rfl, hks⟩ := hrest.exists_escaped
        have hx : Escaped q x v := hx
        rw [hx.find?_closing (quote_ne_slash hq)] at hclose
        obtain rfl : ks = [] := List.isEmpty_iff.1 hclose
        obtain rfl : y = [] := hks.textOf_eq.symm
        exact ⟨x, v, rfl, hx, by rw [inside_cons_append, hx.unescape_eq]⟩
  · rintro ⟨x, v, rfl, hx, rfl⟩
    refine splitText_eq_ok_iff.2 ⟨_, ⟨false, Reads.literal hq hx []⟩, ?_, ?_⟩
    · rw [List.map_cons, List.map_append, List.map_cons, List.map_nil,
        hx.find?_closing (quote_ne_slash hq)]
      rfl
    · rw [inside_cons_append, hx.unescape_eq]

end Quotes

end ColumnTree.Formula
