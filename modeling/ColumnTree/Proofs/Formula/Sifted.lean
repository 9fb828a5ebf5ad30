/-
# What a piece has been sifted of

A level that finds no operator of its own hands the whole text on, and one that finds its last
operator hands on a part behind it with no operator left.  So the text of a piece is clear of the
words and the signs of the looser levels (`Sifted`), though the piece was read without looking for
them again.  A part of a text may look different from the whole at its ends only: a word that was the
end of a longer identifier, or the sign of an exponent whose digit has been cut off.  At a `Seam`
neither happens.
-/
import ColumnTree.Proofs.Formula.Levels
import ColumnTree.Proofs.Formula.Plain

namespace ColumnTree.Formula

/-- What a level looks for in a text. -/
def Level.isCut : Level → Cut → Bool
  | disjunction => (·.hasKeyword "or".toList)
  | conjunction => (·.hasKeyword "and".toList)
  | comparison => (·.isTop ['<', '>', '=', '!'])
  | sum => (·.isBinarySign)
  | product => (·.isProductSign)
  | power => (·.isPowerSign)
  | indexed => (·.isTop ['['])
  | expression | unary | primary => fun _ => false

theorem Cut.isTop_iff {c : Cut} {chars : List Char} :
    c.isTop chars = true ↔ c.mark.top = true ∧ c.mark.char ∈ chars := by
  simp [isTop]

/-! ## Words -/

theorem afterWord_eq_some_iff {word : List Char} {ms rest : List Mark} :
    afterWord word ms = some rest ↔ ∃ ws, ms = ws ++ rest ∧ textOf ws = word := by
  induction word generalizing ms with
  | nil =>
      rw [afterWord, Option.some.injEq]
      constructor
      · rintro rfl
        exact ⟨[], rfl, rfl⟩
      · rintro ⟨ws, rfl, hws⟩
        rw [List.map_eq_nil_iff.1 hws]
        rfl
  | cons c word ih =>
      cases ms with
      | nil =>
          rw [afterWord]
          constructor
          · intro h
            cases h
          · rintro ⟨ws, hnil, hws⟩
            rw [(List.append_eq_nil_iff.1 hnil.symm).1] at hws
            cases hws
      | cons m ms =>
          rw [afterWord]
          constructor
          · intro h
            split at h
            · next hc =>
              obtain ⟨ws, rfl, rfl⟩ := ih.1 h
              exact ⟨m :: ws, rfl, by rw [← hc]; rfl⟩
            · cases h
          · rintro ⟨ws, heq, hws⟩
            cases ws with
            | nil => cases hws
            | cons n ws =>
                obtain ⟨rfl, rfl⟩ := List.cons.inj heq
                obtain ⟨hc, hws⟩ := List.cons.inj hws
                rw [if_pos hc]
                exact ih.2 ⟨ws, rfl, hws⟩

/-- No character of identifiers stands there. -/
def NoIdent (m : Option Mark) : Prop :=
  ∀ a ∈ m, isIdentChar a.char = false

theorem noIdent_iff {m : Option Mark} :
    m.all (fun a => !isIdentChar a.char) = true ↔ NoIdent m := by
  cases m <;> simp [NoIdent]

theorem Cut.afterKeyword?_eq_some_iff {c : Cut} {word : List Char} {rest : List Mark} :
    c.afterKeyword? word = some rest ↔ c.mark.top = true ∧ NoIdent c.before.head? ∧
      (∃ ws, c.mark :: c.after = ws ++ rest ∧ textOf ws = word) ∧ NoIdent rest.head? := by
  unfold afterKeyword?
  by_cases h : c.mark.top = true ∧ NoIdent c.before.head?
  · rw [if_pos (by rw [Bool.and_eq_true, noIdent_iff]; exact h), Option.filter_eq_some_iff,
      afterWord_eq_some_iff, noIdent_iff]
    exact ⟨fun h' => ⟨h.1, h.2, h'.1, h'.2⟩, fun h' => ⟨h'.2.2.1, h'.2.2.2⟩⟩
  · rw [if_neg (by rw [Bool.and_eq_true, noIdent_iff]; exact h)]
    exact ⟨fun h' => (nomatch h'), fun h' => absurd ⟨h'.1, h'.2.1⟩ h⟩

theorem Cut.hasKeyword_iff {c : Cut} {word : List Char} :
    c.hasKeyword word = true ↔ c.mark.top = true ∧ NoIdent c.before.head? ∧
      ∃ ws rest, c.mark :: c.after = ws ++ rest ∧ textOf ws = word ∧ NoIdent rest.head? := by
  rw [hasKeyword, Option.isSome_iff_exists]
  constructor
  · rintro ⟨rest, h⟩
    obtain ⟨h₁, h₂, ⟨ws, h₃, h₄⟩, h₅⟩ := afterKeyword?_eq_some_iff.1 h
    exact ⟨h₁, h₂, ws, rest, h₃, h₄, h₅⟩
  · rintro ⟨h₁, h₂, ws, rest, h₃, h₄, h₅⟩
    exact ⟨rest, afterKeyword?_eq_some_iff.2 ⟨h₁, h₂, ⟨ws, h₃, h₄⟩, h₅⟩⟩

/-! ## Where operators are found -/

/-- The characters at which a level finds its operators. -/
def Level.cutChars : Level → List Char
  | disjunction => ['o']
  | conjunction => ['a']
  | comparison => ['<', '>', '=', '!']
  | sum => ['+', '-']
  | product => ['*', '/']
  | power => ['*']
  | indexed => ['[']
  | expression | unary | primary => []

theorem Cut.mem_of_hasKeyword {c : Cut} {a : Char} {word : List Char}
    (h : c.hasKeyword (a :: word) = true) : c.mark.top = true ∧ c.mark.char ∈ [a] := by
  obtain ⟨htop, -, ws, rest, hws, hchars, -⟩ := hasKeyword_iff.1 h
  refine ⟨htop, ?_⟩
  cases ws with
  | nil => cases hchars
  | cons m ws =>
      obtain ⟨hm, -⟩ := List.cons.inj hws
      obtain ⟨rfl, -⟩ := List.cons.inj hchars
      rw [hm]
      exact List.mem_singleton.2 rfl

theorem Level.mem_of_isCut {l : Level} {c : Cut} (h : l.isCut c = true) :
    c.mark.top = true ∧ c.mark.char ∈ l.cutChars := by
  cases l with
  | expression | unary | primary => cases h
  | disjunction | conjunction => exact Cut.mem_of_hasKeyword h
  | comparison | indexed => exact Cut.isTop_iff.1 h
  | sum =>
      simp only [isCut, Cut.isBinarySign, Bool.and_eq_true] at h
      exact Cut.isTop_iff.1 h.1.1
  | product =>
      simp only [isCut, Cut.isProductSign, Bool.or_eq_true, Bool.and_eq_true] at h
      rcases h with h | h
      · obtain ⟨htop, hc⟩ := Cut.isTop_iff.1 h
        exact ⟨htop, List.mem_cons_of_mem _ hc⟩
      · obtain ⟨htop, hc⟩ := Cut.isTop_iff.1 h.1.1
        rw [List.mem_singleton.1 hc]
        exact ⟨htop, List.mem_cons_self ..⟩
  | power =>
      simp only [isCut, Cut.isPowerSign, Bool.and_eq_true] at h
      exact Cut.isTop_iff.1 h.1

/-- At a power sign stand two stars, the first of them on top. -/
theorem Cut.exists_of_isPowerSign {c : Cut} (h : c.isPowerSign = true) : c.mark.top = true ∧
    ∃ n, c.after = n :: c.after.drop 1 ∧ ∀ k ∈ [c.mark, n], k.char = '*' := by
  obtain ⟨hc, hstar⟩ := Bool.and_eq_true_iff.1 h
  obtain ⟨htop, hchar⟩ := Cut.isTop_iff.1 hc
  obtain ⟨before, m, after⟩ := c
  cases after with
  | nil => cases hstar
  | cons n after =>
      have hn : n.char = '*' := by simpa [startsWithStar] using hstar
      exact ⟨htop, n, rfl, List.forall_mem_cons.2
        ⟨List.mem_singleton.1 hchar, List.forall_mem_singleton.2 hn⟩⟩

/-! ## Seams -/

/-- Two marks, or ends of a text, that do not belong to one word. -/
def Seam (m n : Option Mark) : Prop :=
  ∀ a ∈ m, ∀ b ∈ n, isIdentChar a.char = true → isIdentChar b.char = false

theorem seam_of_left {m n : Option Mark} (h : NoIdent m) : Seam m n := by
  intro a ha b _ hident
  rw [h a ha] at hident
  cases hident

theorem seam_of_right {m n : Option Mark} (h : NoIdent n) : Seam m n :=
  fun _ _ b hb _ => h b hb

theorem noIdent_none : NoIdent none := by
  intro a h
  cases h

theorem noIdent_head_of_blanks {ms : List Mark} (h : Text.Blanks (textOf ms)) (hne : ms ≠ []) :
    NoIdent ms.head? := by
  cases ms with
  | nil => exact absurd rfl hne
  | cons m ms =>
      intro a ha
      obtain rfl := Option.some.inj ha
      exact isIdentChar_of_isBlank (h _ (List.mem_cons_self ..))

theorem noIdent_last_of_blanks {ms : List Mark} (h : Text.Blanks (textOf ms)) (hne : ms ≠ []) :
    NoIdent ms.getLast? := by
  have hrev : Text.Blanks (textOf ms.reverse) := by
    intro c hc
    rw [textOf, List.map_reverse, List.mem_reverse] at hc
    exact h c hc
  have := noIdent_head_of_blanks hrev (mt List.reverse_eq_nil_iff.1 hne)
  rwa [List.head?_reverse] at this

section Parts

variable {before ms after : List Mark} (hleft : Seam before.head? ms.head?)
  (hright : Seam ms.getLast? after.head?)

include hleft hright

/-- A word that stands alone in a part stands alone in the whole. -/
theorem clear_hasKeyword_part {word : List Char} (hne : word ≠ [])
    (hword : ∀ c ∈ word, isIdentChar c = true) (h : Clear (·.hasKeyword word) before ms after) :
    Clear (·.hasKeyword word) [] ms [] := by
  intro x m y heq
  rw [List.append_nil, List.append_nil, ← Bool.not_eq_true]
  intro hpart
  obtain ⟨htop, hbefore, ws, rest, hws, rfl, hrest⟩ := Cut.hasKeyword_iff.1 hpart
  have hident : ∀ n ∈ ws, isIdentChar n.char = true := fun n hn =>
    hword _ (List.mem_map_of_mem hn)
  have hnil : ws ≠ [] := fun hnil => hne (by rw [hnil]; rfl)
  refine Bool.false_ne_true ((h x m y heq).symm.trans (Cut.hasKeyword_iff.2
    ⟨htop, ?_, ws, rest ++ after, ?_, rfl, ?_⟩))
  · cases hx : x.reverse with
    | cons n x' =>
        dsimp only at hbefore ⊢
        rw [hx] at hbefore
        exact hbefore
    | nil =>
        obtain ⟨n, ws', rfl⟩ := List.exists_cons_of_ne_nil hnil
        obtain ⟨rfl, -⟩ := List.cons.inj hws
        obtain rfl := List.reverse_eq_nil_iff.1 hx
        intro a ha
        rw [← Bool.not_eq_true]
        intro hident'
        have := hleft a ha m (by rw [heq]; rfl) hident'
        rw [hident m (List.mem_cons_self ..)] at this
        cases this
  · dsimp only at hws ⊢
    rw [← List.cons_append, hws, List.append_assoc]
  · cases rest with
    | cons n rest => exact hrest
    | nil =>
        obtain ⟨ws', n, rfl⟩ := List.eq_nil_or_concat ws |>.resolve_left hnil
        intro a ha
        refine hright n ?_ a ha (hident n (by simp))
        dsimp only at hws
        rw [heq, hws]
        simp

omit hright in
/-- A sign between two operands in a part is one in the whole. -/
theorem clear_isBinarySign_part (h : Clear (·.isBinarySign) before ms after) :
    Clear (·.isBinarySign) [] ms [] := by
  intro x m y heq
  rw [List.append_nil, List.append_nil, ← Bool.not_eq_true]
  intro hpart
  refine Bool.false_ne_true ((h x m y heq).symm.trans ?_)
  simp only [Cut.isBinarySign, Bool.and_eq_true, Bool.not_eq_true'] at hpart ⊢
  obtain ⟨⟨htop, hexp⟩, hprev⟩ := hpart
  refine ⟨⟨htop, ?_⟩, ?_⟩
  · cases hx : x.reverse with
    | nil =>
        rw [hx] at hprev
        cases hprev
    | cons e x' =>
        cases x' with
        | cons d x' =>
            rw [hx] at hexp
            exact hexp
        | nil =>
            -- Only the letter would be left of the exponent, and the digit is on the other side.
            cases before with
            | nil => rfl
            | cons d before =>
                obtain rfl : x = [e] := by
                  rw [← List.reverse_reverse x, hx]
                  rfl
                have hseam := hleft d rfl e (by rw [heq]; rfl)
                show ((e.char == 'e' || e.char == 'E') && d.char.isDigit) = false
                cases hdigit : d.char.isDigit with
                | false => exact Bool.and_false _
                | true =>
                    have hne := hseam (isIdentChar_of_isDigit hdigit)
                    rw [Bool.and_true, Bool.or_eq_false_iff, beq_eq_false_iff_ne,
                      beq_eq_false_iff_ne]
                    constructor <;> intro he <;> rw [he] at hne <;> cases hne
  · have hfind : Cut.previous? ⟨x.reverse ++ before, m, y ++ after⟩ =
        (Cut.previous? ⟨x.reverse, m, y⟩).or (Cut.previous? ⟨before, m, y ++ after⟩) := by
      simp only [Cut.previous?, List.find?_append, Option.map_or]
    rw [hfind]
    cases hp : Cut.previous? ⟨x.reverse, m, y⟩ with
    | none =>
        rw [hp] at hprev
        cases hprev
    | some p =>
        rw [hp] at hprev
        exact hprev

/-- The levels whose operators are looked for only once. -/
def heritable : List Level := [.disjunction, .conjunction, .sum]

theorem clear_part {l : Level} (hl : l ∈ heritable) (h : Clear l.isCut before ms after) :
    Clear l.isCut [] ms [] := by
  simp only [heritable, List.mem_cons, List.not_mem_nil, or_false] at hl
  rcases hl with rfl | rfl | rfl
  · exact clear_hasKeyword_part hleft hright (by decide) (by decide) h
  · exact clear_hasKeyword_part hleft hright (by decide) (by decide) h
  · exact clear_isBinarySign_part hleft h

/-- What is clear stays clear when the blanks around it are left out. -/
theorem exists_scans_trim {s : List Char} {d : Bool} (h : Reads .start s ms ⟨.plain d, []⟩) :
    ∃ ms', Scans (Text.trim s) ms' ∧
      ∀ l ∈ heritable, Clear l.isCut before ms after → Clear l.isCut [] ms' [] := by
  obtain ⟨x, ms', y, rfl, hx, hy, hscan⟩ := h.trim
  refine ⟨ms', hscan, fun l hl hclear => ?_⟩
  cases ms' with
  | nil => exact clear_nil
  | cons m ms' =>
      rw [clear_append, clear_append] at hclear
      refine clear_part ?_ ?_ hl hclear.1.2
      · cases x with
        | nil => exact hleft
        | cons n x =>
            have hlast := noIdent_last_of_blanks hx (List.cons_ne_nil n x)
            rw [List.getLast?_eq_some_getLast (List.cons_ne_nil n x)] at hlast
            rw [List.head?_append, List.head?_reverse,
              List.getLast?_eq_some_getLast (List.cons_ne_nil n x)]
            exact seam_of_left hlast
      · cases y with
        | nil =>
            rw [List.append_nil, List.getLast?_append,
              List.getLast?_eq_some_getLast (List.cons_ne_nil m ms')] at hright
            rw [List.getLast?_eq_some_getLast (List.cons_ne_nil m ms')]
            exact hright
        | cons n y =>
            have hhead := noIdent_head_of_blanks hy (List.cons_ne_nil n y)
            exact seam_of_right hhead

end Parts

/-! ## Pieces -/

/-- The text of a piece below the loosest level is scanned, and is clear of the words and signs that
the looser levels have looked for. -/
def Sifted (p : Piece) : Prop :=
  p.level.rank < Level.disjunction.rank → ∃ ms, Scans p.text ms ∧
    ∀ l ∈ heritable, p.level.rank < l.rank → Clear l.isCut [] ms []

theorem Sifted.clear {l l' : Level} {t : List Char} {ms : List Mark} (h : Sifted ⟨l, t⟩)
    (hscan : Scans t ms) (hl' : l' ∈ heritable) (hrank : l.rank < l'.rank) :
    Clear l'.isCut [] ms [] := by
  have hle : l'.rank ≤ Level.disjunction.rank := by
    revert hl'
    cases l' <;> decide
  obtain ⟨ms', hms', hclear⟩ := h (Nat.lt_of_lt_of_le hrank hle)
  obtain rfl := hscan.unique hms'
  exact hclear l' hl' hrank

/-- The blanks around a piece can be left out. -/
theorem Sifted.trim {l : Level} {t : List Char} (h : Sifted ⟨l, t⟩) : Sifted ⟨l, Text.trim t⟩ := by
  intro hrank
  obtain ⟨ms, ⟨d, hms⟩, hclear⟩ := h hrank
  obtain ⟨ms', hscan, hpart⟩ := @exists_scans_trim [] ms [] (seam_of_left noIdent_none)
    (seam_of_right noIdent_none) t d hms
  exact ⟨ms', hscan, fun l' hl' hlt => hpart l' hl' (hclear l' hl' hlt)⟩

/-- A piece can be handed on to a tighter level that is no operator's, or whose operator is not
there. -/
theorem Sifted.tighten {l m : Level} {t : List Char} {ms : List Mark} (h : Sifted ⟨l, t⟩)
    (hscan : Scans t ms) (hclear : ∀ l' ∈ heritable, m.rank < l'.rank → l.rank < l'.rank ∨
      Clear l'.isCut [] ms []) : Sifted ⟨m, t⟩ := by
  intro _
  refine ⟨ms, hscan, fun l' hl' hrank => ?_⟩
  rcases hclear l' hl' hrank with hlt | hms
  · exact h.clear hscan hl' hlt
  · exact hms

section Operands

variable {l left right : Level} {t : List Char} {b w r : List Mark} {m : Mark}
  (h : Sifted ⟨l, t⟩)

include h

/-- The part before a mark on top. -/
theorem Sifted.before (hscan : Scans t (b ++ m :: r)) (htop : m.top = true)
    (hm : m.char ≠ ')' ∧ m.char ≠ ']') (hseam : Seam b.getLast? (some m))
    (hleft : ∀ l' ∈ heritable, left.rank < l'.rank → l.rank < l'.rank) :
    Sifted ⟨left, Text.trim (textOf b)⟩ := by
  intro _
  obtain ⟨d, hreads⟩ := id hscan
  obtain ⟨d', hb, -⟩ := hreads.before_top trivial htop hm
  obtain ⟨ms', hscan', hpart⟩ := @exists_scans_trim [] b (m :: r) (seam_of_left noIdent_none)
    hseam _ d' hb
  refine ⟨ms', hscan', fun l' hl' hrank => hpart l' hl' ?_⟩
  simpa using (clear_append.1 (h.clear hscan hl' (hleft l' hl' hrank))).1

/-- The part behind an operator.  `w` is what follows of the operator after its first mark. -/
theorem Sifted.after (hscan : Scans t (b ++ m :: (w ++ r))) (htop : m.top = true)
    (hord : ∀ n ∈ m :: w, Ordinary n.char) (hseam : Seam (m :: w).getLast? r.head?)
    (hright : ∀ l' ∈ heritable, right.rank < l'.rank → l.rank < l'.rank ∨
      Clear l'.isCut (m :: b.reverse) (w ++ r) []) :
    Sifted ⟨right, Text.trim (textOf r)⟩ := by
  intro _
  obtain ⟨d, hreads⟩ := id hscan
  have hm := hord m (List.mem_cons_self ..)
  obtain ⟨d', -, hmr⟩ := hreads.before_top trivial htop hm.ne_close
  have hlast : (w.reverse ++ m :: b.reverse).head? = (m :: w).getLast? := by
    rw [← List.head?_reverse, List.reverse_cons, List.head?_append, List.head?_append]
    rfl
  obtain ⟨ms', hscan', hpart⟩ := @exists_scans_trim (w.reverse ++ m :: b.reverse) r []
    (by rwa [hlast]) (seam_of_right noIdent_none) _ d (hmr.after_ordinary hord)
  refine ⟨ms', hscan', fun l' hl' hrank => hpart l' hl' ?_⟩
  rcases hright l' hl' hrank with hlt | hwr
  · have := (clear_append.1 (h.clear hscan hl' hlt)).2
    rw [List.append_nil, clear_cons, clear_append] at this
    exact this.2.2
  · rw [clear_append] at hwr
    exact hwr.2

end Operands

/-- The characters of the operators that are no words. -/
def operatorChars : List Char := ['+', '-', '*', '/', '<', '>', '=', '!']

theorem ordinary_of_mem_operatorChars {c : Char} (h : c ∈ operatorChars) : Ordinary c := by
  revert c
  decide

theorem noIdent_of_mem_operatorChars {m : Mark} (h : m.char ∈ operatorChars) : NoIdent (some m) := by
  have : ∀ c ∈ operatorChars, isIdentChar c = false := by decide
  intro a ha
  rw [← Option.some.inj ha]
  exact this _ h

end ColumnTree.Formula
