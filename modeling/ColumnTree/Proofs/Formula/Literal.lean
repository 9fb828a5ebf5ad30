/-
# Number literals

The reader of formulas goes by operators before it comes to numbers, and the sign of an exponent looks
like one.  It is told from an operator by the letter in front of it and a digit in front of that.  So
every text that begins with a digit or a point and is read as a number is a literal (`IsNumber`),
except that a point may stand directly in front of the letter: such a number is cut at the sign of its
exponent (`CutShort`), and what is left of it there is none.
-/
import ColumnTree.Proofs.Formula.Composed

namespace ColumnTree.Formula

/-- A number is cut at the sign of its exponent, and this is left in front of it. -/
def CutShort (s left : List Char) : Prop :=
  ∃ w l sign ds, left = w ++ ['.', l] ∧ s = left ++ sign :: ds ∧ (l = 'e' ∨ l = 'E') ∧
    (sign = '+' ∨ sign = '-')

section Numbers

variable {s left : List Char} (h : (Decimal.read? s).isSome = true)
  (hhead : s.head?.any (fun c => c.isDigit || c == '.') = true)

include h hhead

/-- A number that is not cut short is a literal. -/
theorem isNumber_of_not_cutShort (hno : ¬ ∃ left, CutShort s left) : IsNumber s where
  reads := h
  head := hhead
  sign x c y heq hc := by
    obtain ⟨m, e, hs, hne, hm, he⟩ := Decimal.exists_of_read? h hhead
    obtain ⟨l, rfl, hl, -⟩ := Decimal.sign_numeral hm he (hs.symm.trans heq) hc
    obtain ⟨w, d, rfl⟩ := (List.eq_nil_or_concat m).resolve_left hne
    rw [List.concat_eq_append] at *
    rcases hm d (by simp) with hd | rfl
    · exact ⟨w, d, l, by simp, hd, hl⟩
    · exact absurd ⟨_, w, l, c, y, rfl, by simpa using heq, hl, hc⟩ hno

/-- On the levels above sums any number is handed on. -/
theorem spelled_sum_of_read? : Spelled .sum s (s.map (.of · true)) := by
  have hchars : ∀ c ∈ s, IsNumberChar c := fun c hc => isNumberChar_of_read? h hhead hc
  refine .ofNumberChars hchars (fun l' _ _ hrank _ => clear_numberChars ?_ hchars) hhead fun hs => ?_
  · rintro rfl
    exact absurd hrank (Nat.lt_irrefl _)
  · obtain ⟨m, e, rfl, -, hm, he⟩ := Decimal.exists_of_read? h hhead
    exact Decimal.last_numeral hm he hs

/-- What is left is figures with a letter behind them, and digits stand on the other side. -/
theorem CutShort.exists_figures (hcut : CutShort s left) : ∃ m l sign ds, left = m ++ '.' :: [l] ∧
    s = left ++ sign :: ds ∧ (l = 'e' ∨ l = 'E') ∧ (sign = '+' ∨ sign = '-') ∧
    (∀ c ∈ m, Decimal.IsFigure c) ∧ ds ≠ [] ∧ ∀ d ∈ ds, d.isDigit = true := by
  obtain ⟨w, l, sign, ds, rfl, rfl, hl, hsign⟩ := hcut
  obtain ⟨m, e, hs, -, hm, he⟩ := Decimal.exists_of_read? h hhead
  obtain ⟨k, hk, -, hne, hds⟩ := Decimal.sign_numeral hm he hs.symm hsign
  have hends : (w ++ ['.']) ++ [l] = m ++ [k] := by simpa using hk
  have hw : w ++ ['.'] = m := (List.append_inj' hends rfl).1
  refine ⟨w, l, sign, ds, rfl, rfl, hl, hsign, fun c hc => hm c ?_, hne, hds⟩
  rw [← hw]
  exact List.mem_append_left _ hc

omit h in
theorem CutShort.head (hcut : CutShort s left) :
    left.head?.any (fun c => c.isDigit || c == '.') = true := by
  obtain ⟨w, l, sign, ds, rfl, rfl, -⟩ := hcut
  cases w with
  | nil => rfl
  | cons c w => exact hhead

end Numbers

/-! ## Figures with a letter behind them -/

section Lettered

variable {m : List Char} {l : Char} (hm : ∀ c ∈ m, Decimal.IsFigure c) (hl : l = 'e' ∨ l = 'E')

include hm hl

theorem spelled_lettered (hhead : (m ++ [l]).head?.any (fun c => c.isDigit || c == '.') = true) :
    Spelled .primary (m ++ [l]) ((m ++ [l]).map (.of · true)) := by
  have hchars : ∀ c ∈ m ++ [l], IsNumberChar c ∧ c ∉ ['+', '-'] := by
    intro c hc
    rcases List.mem_append.1 hc with hc | hc
    · rcases hm c hc with hdigit | rfl
      · refine ⟨.inl hdigit, fun hsign => ?_⟩
        simp only [List.mem_cons, List.not_mem_nil, or_false] at hsign
        rcases hsign with rfl | rfl <;> cases hdigit
      · exact ⟨.inr (by decide), by decide⟩
    · rw [List.mem_singleton.1 hc]
      rcases hl with rfl | rfl <;> exact ⟨.inr (by decide), by decide⟩
  refine .ofNumberChars (fun c hc => (hchars c hc).1) (fun l' _ _ _ _ => ?_) hhead fun {x c} heq => ?_
  · by_cases hsum : l' = .sum
    · subst hsum
      exact clear_top fun c hc => (hchars c hc).2
    · exact clear_numberChars hsum fun c hc => (hchars c hc).1
  · have hsign := (hchars c (by rw [heq]; simp)).2
    simpa using hsign

omit hm in
/-- They are no number. -/
theorem read?_lettered (hhead : (m ++ [l]).head?.any (fun c => c.isDigit || c == '.') = true) :
    (Decimal.read? (m ++ [l])).isSome = false := by
  rw [← Bool.not_eq_true]
  intro h
  obtain ⟨m', e, heq, -, hm', he⟩ := Decimal.exists_of_read? h hhead
  have hlast : Decimal.IsFigure l := by
    rcases he with rfl | ⟨k, sign, ds, rfl, -, -, hne, hds⟩
    · rw [List.append_nil] at heq
      exact hm' l (by rw [← heq]; simp)
    · obtain ⟨ds, d, rfl⟩ := (List.eq_nil_or_concat ds).resolve_left hne
      have hends : m ++ [l] = (m' ++ k :: (sign ++ ds)) ++ [d] := by simpa using heq
      rw [(List.cons.inj (List.append_inj' hends rfl).2).1]
      exact .inl (hds d (by simp))
  rcases hl with rfl | rfl <;> rcases hlast with h | h <;> cases h

theorem parseAt_lettered (hhead : (m ++ [l]).head?.any (fun c => c.isDigit || c == '.') = true) :
    parseAt ⟨.sum, m ++ [l]⟩ = .error (.badNumber (String.ofList (m ++ [l]))) := by
  have hspelled := spelled_lettered hm hl hhead
  rw [hspelled.parseAt_of_le (by decide)]
  refine parseAt_of_split_error ?_
  rw [split_figures hspelled hhead, read?_lettered hl hhead]
  rfl

end Lettered

/-! ## The cut -/

/-- Behind a point and a letter a sign counts as one between operands. -/
theorem isBinarySign_short {m : List Char} {l sign : Char} (after : List Mark)
    (hl : l = 'e' ∨ l = 'E') (hsign : sign = '+' ∨ sign = '-') :
    Cut.isBinarySign ⟨((m ++ ['.', l]).map (.of · true)).reverse, .of sign true, after⟩ = true := by
  have hreverse : ((m ++ ['.', l]).map (Mark.of · true)).reverse =
      Mark.of l true :: .of '.' true :: (m.map (.of · true)).reverse := by simp
  rw [hreverse]
  rcases hl with rfl | rfl <;> rcases hsign with rfl | rfl <;> rfl

theorem split_short {m ds : List Char} {l sign : Char}
    (hspelled : Spelled .sum (m ++ ['.', l] ++ sign :: ds)
      ((m ++ ['.', l] ++ sign :: ds).map (.of · true)))
    (hl : l = 'e' ∨ l = 'E') (hsign : sign = '+' ∨ sign = '-') (hne : ds ≠ [])
    (hds : ∀ d ∈ ds, d.isDigit = true) (hleft : Text.trim (m ++ ['.', l]) = m ++ ['.', l]) :
    split .sum (m ++ ['.', l] ++ sign :: ds) =
      .ok (.node (if sign = '+' then .sum else .difference) []
        [⟨.sum, m ++ ['.', l]⟩, ⟨.product, ds⟩]) := by
  let cut : Cut :=
    ⟨((m ++ ['.', l]).map (.of · true)).reverse, .of sign true, ds.map (.of · true)⟩
  have htexts : cut.left = m ++ ['.', l] ∧ cut.right = ds := by
    constructor <;> simp [cut, Cut.left, Cut.right, textOf, Function.comp_def]
  have hright : Text.trim ds = ds :=
    Text.trim_eq_self (Text.bare_of_forall fun d hd => IsNumberChar.isBlank (.inl (hds d hd)))
  have hclear : Clear Level.sum.isCut (cut.mark :: cut.before) cut.after [] :=
    clear_top fun d hd hmem => by
      simp only [Level.cutChars, List.mem_cons, List.not_mem_nil, or_false] at hmem
      have hdigit := hds d hd
      rcases hmem with rfl | rfl <;> cases hdigit
  refine splitSum_eq_ok_iff.2 ⟨_, hspelled.scans, .inr ⟨cut, ?_, ?_, ?_⟩⟩
  · exact lastCut_eq_some_iff.2 ⟨by simp [cut], isBinarySign_short _ hl hsign, hclear⟩
  · rw [htexts.2, hright]
    exact hne
  · rw [htexts.1, htexts.2, hleft, hright]
    rfl

/-- A number that is cut short is refused for what is left of it. -/
theorem parseAt_of_cutShort {s left : List Char} (h : (Decimal.read? s).isSome = true)
    (hhead : s.head?.any (fun c => c.isDigit || c == '.') = true) (hcut : CutShort s left) :
    parseAt ⟨.expression, s⟩ = .error (.badNumber (String.ofList left)) := by
  have hspelled := spelled_sum_of_read? h hhead
  have hlefthead := hcut.head hhead
  obtain ⟨m, l, sign, ds, rfl, rfl, hl, hsign, hm, hne, hds⟩ := hcut.exists_figures h hhead
  have hfigures : ∀ c ∈ m ++ ['.'], Decimal.IsFigure c := by
    intro c hc
    rcases List.mem_append.1 hc with hc | hc
    · exact hm c hc
    · exact .inr (List.mem_singleton.1 hc)
  have hsplit : m ++ ['.', l] = (m ++ ['.']) ++ [l] := by simp
  have hleft := parseAt_lettered hfigures hl (hsplit ▸ hlefthead)
  have htrim := (spelled_lettered hfigures hl (hsplit ▸ hlefthead)).trim_eq
  rw [← hsplit] at hleft htrim
  rw [hspelled.parseAt_of_le (by decide),
    parseAt_of_split (p := ⟨.sum, _⟩) (split_short hspelled hl hsign hne hds htrim), Step.tree,
    List.mapM_cons, hleft]
  rfl

/-! ## Literals -/

/-- A text that begins with a digit or a point and is read as a number is a literal with that value,
exactly if it is not cut short at the sign of its exponent; if it is, it is refused for what is left
in front of the sign. -/
theorem parse_number_iff (t : String) (x : Float) (hread : Decimal.read? t.toList = some x)
    (hhead : t.toList.head?.any (fun c => c.isDigit || c == '.') = true) :
    (parse t = .ok (.leaf .number t) ↔ ¬ ∃ left, CutShort t.toList left) ∧
      (∀ left, CutShort t.toList left → parse t = .error (.badNumber (String.ofList left))) ∧
      ∀ l : Library, compile l (.leaf .number t) = .ok (.number t.toList x) ∧
        ∀ row, (Expr.number t.toList x).eval row = .number x := by
  have hsome : (Decimal.read? t.toList).isSome = true := by rw [hread]; rfl
  have hshort : ∀ left, CutShort t.toList left → parse t = .error (.badNumber (String.ofList left)) :=
    fun left hcut => parseAt_of_cutShort hsome hhead hcut
  refine ⟨⟨?_, fun hno => ?_⟩, hshort, fun l => ⟨compile_number hread hhead, fun _ => rfl⟩⟩
  · rintro hok ⟨left, hcut⟩
    cases hok.symm.trans (hshort left hcut)
  · have hnumber := isNumber_of_not_cutShort hsome hhead hno
    rw [parse, (Spelled.number hnumber).parseAt_of_le (by decide)]
    exact parseAt_of_split (p := ⟨.primary, _⟩) (split_number hnumber)

theorem cutShort_bare : CutShort "1.e-5".toList "1.e".toList :=
  ⟨['1'], 'e', '-', ['5'], by decide, by decide, .inl rfl, .inr rfl⟩

/-- A number without a digit in front of its point, and one without a digit behind it. -/
theorem parse_number_iff_bare :
    Decimal.read? ".5E+2".toList = some 50 ∧ Decimal.read? "1.e-5".toList = some 1e-5 ∧
      parse ".5E+2" = .ok (.leaf .number ".5E+2") ∧
      compile .empty (.leaf .number ".5E+2") = .ok (.number ".5E+2".toList 50) ∧
      parse "1.e-5" = .error (.badNumber "1.e") := by
  have hfifty : Decimal.read? ".5E+2".toList = some 50 := by decide +kernel
  have htiny : Decimal.read? "1.e-5".toList = some 1e-5 := rfl
  have hwhole : ¬ ∃ left, CutShort ".5E+2".toList left := by
    rintro ⟨_, w, l, sign, ds, rfl, hs, hl, -⟩
    change ['.', '5', 'E', '+', '2'] = _ at hs
    rcases w with _ | ⟨a, _ | ⟨b, _ | ⟨c, w⟩⟩⟩
    · obtain rfl : '5' = l := by simpa using (List.cons.inj (List.cons.inj hs).2).1
      simp at hl
    · simp at hs
    · simp at hs
    · have := congrArg List.length hs
      simp at this
      omega
  obtain ⟨hiff, -, hcompile⟩ := parse_number_iff ".5E+2" 50 hfifty (by decide)
  obtain ⟨-, herror, -⟩ := parse_number_iff "1.e-5" 1e-5 htiny (by decide)
  exact ⟨hfifty, htiny, hiff.2 hwhole, (hcompile .empty).1, herror _ cutShort_bare⟩

/-- A number with a point in front of the letter and a sign behind it is refused. -/
theorem not_forall_parse_number : ¬ ∀ (t : String) (x : Float), Decimal.read? t.toList = some x →
    t.toList.head?.any (fun c => c.isDigit || c == '.') = true →
      parse t = .ok (.leaf .number t) := by
  intro hall
  have htiny : Decimal.read? "1.e-5".toList = some 1e-5 := rfl
  have herror := parseAt_of_cutShort (htiny ▸ rfl) (by decide) cutShort_bare
  cases herror.symm.trans (hall "1.e-5" 1e-5 htiny (by decide))

end ColumnTree.Formula
