/-
# The integer that a text begins with

`parse_int` reads a sign and as many digits as there are.  The digits may be any number, but what they
stand for has to fit into 64 bits with a sign, although a double is made of it: of an integer that
fits the answer is the nearest double, and of a larger one it is not a number, just as if there were no
digits at all (`parseInt_nearest_iff`).
-/
import ColumnTree.Proofs.Decimal.Nearest
import ColumnTree.Proofs.Library.Search

namespace ColumnTree.Library

namespace Strings

/-! ## Digits -/

/-- A text begins, after blanks, with an integer: with a sign or none, and then with digits of a base,
at least one and as many as there are. -/
def LeadingInteger (base : ℕ) (s : List Char) (negative : Bool) (n : ℕ) : Prop :=
  ∃ (sign run rest : List Char) (ds : List ℕ), Text.trim s = sign ++ (run ++ rest) ∧
    (if negative then sign = ['-'] else sign = [] ∨ sign = ['+']) ∧
    run ≠ [] ∧ run.map (digit? base) = ds.map some ∧ (∀ c ∈ rest.head?, digit? base c = none) ∧
    n = Nat.ofDigits base ds.reverse

theorem leadingDigits_append {base : ℕ} {run rest : List Char} {ds : List ℕ}
    (hrun : run.map (digit? base) = ds.map some)
    (hrest : ∀ c ∈ rest.head?, digit? base c = none) : leadingDigits base (run ++ rest) = ds := by
  induction run generalizing ds with
  | nil =>
      obtain rfl := List.map_eq_nil_iff.1 hrun.symm
      cases rest with
      | nil => rfl
      | cons c rest => rw [List.nil_append, leadingDigits, hrest c rfl]
  | cons c run ih =>
      cases ds with
      | nil => cases hrun
      | cons d ds =>
          obtain ⟨hc, hrun⟩ := List.cons.inj hrun
          rw [List.cons_append, leadingDigits, hc]
          exact congrArg (d :: ·) (ih hrun)

theorem foldl_eq_ofDigits (base : ℕ) (ds : List ℕ) :
    ds.foldl (fun n d => n * base + d) 0 = Nat.ofDigits base ds.reverse := by
  rw [Nat.ofDigits_eq_foldr, List.foldr_reverse]
  refine congrArg (fun f => ds.foldl f 0) ?_
  funext n d
  rw [Nat.mul_comm, Nat.add_comm]
  rfl

theorem signs_ne_digits {base : ℕ} {c : Char} {d : ℕ} (h : digit? base c = some d) :
    c ≠ '-' ∧ c ≠ '+' := by
  constructor <;>
  · rintro rfl
    cases h

/-- What is read of a text behind its sign. -/
def afterSign (base : ℕ) (negative : Bool) (s : List Char) : Float :=
  let digits := leadingDigits base s
  let n := digits.foldl (fun n d => n * base + d) 0
  if digits.isEmpty || twoTo 63 ≤ n then notANumber
  else if negative then -n.toFloat else n.toFloat

theorem afterSign_append {base : ℕ} {run rest : List Char} {ds : List ℕ} (hne : run ≠ [])
    (hrun : run.map (digit? base) = ds.map some)
    (hrest : ∀ c ∈ rest.head?, digit? base c = none) (negative : Bool) :
    afterSign base negative (run ++ rest) =
      if Nat.ofDigits base ds.reverse < 2 ^ 63 then
        if negative then -(Nat.ofDigits base ds.reverse).toFloat
        else (Nat.ofDigits base ds.reverse).toFloat
      else notANumber := by
  have hds : ds.isEmpty = false := by
    cases ds with
    | nil => exact absurd (List.map_eq_nil_iff.1 hrun) hne
    | cons => rfl
  simp only [afterSign, leadingDigits_append hrun hrest, foldl_eq_ofDigits, hds, Bool.false_or]
  by_cases hn : Nat.ofDigits base ds.reverse < 2 ^ 63
  · rw [if_pos hn, if_neg]
    simpa using hn
  · rw [if_neg hn, if_pos]
    simpa using hn

/-- What is read of an integer.  Without a sign it begins with a digit, which is none. -/
theorem parseInt_of_leadingInteger {base n : ℕ} {s : List Char} {negative : Bool}
    (hbase : 2 ≤ base ∧ base ≤ 36) (h : LeadingInteger base s negative n) :
    parseInt s base = if n < 2 ^ 63 then if negative then -n.toFloat else n.toFloat
      else notANumber := by
  obtain ⟨sign, run, rest, ds, htrim, hsign, hne, hrun, hrest, rfl⟩ := h
  rw [← afterSign_append hne hrun hrest negative, parseInt, if_neg (by omega), htrim]
  cases negative with
  | true =>
      obtain rfl := (if_pos rfl).mp hsign
      rfl
  | false =>
      rcases hsign with rfl | rfl
      · obtain ⟨c, run, rfl⟩ := List.exists_cons_of_ne_nil hne
        cases ds with
        | nil => cases hrun
        | cons d ds =>
            have hc := signs_ne_digits (List.cons.inj hrun).1
            rw [List.nil_append]
            split
            next heq =>
              split at heq
              · next heq' => exact absurd (List.cons.inj heq').1 hc.1
              · next heq' => exact absurd (List.cons.inj heq').1 hc.2
              · cases heq
                rfl
      · rfl

end Strings

/-! ## Answers -/

theorem answer?_parseInt (now : Calendar.Moment) (args : List Cell) :
    answer? now "parse_int" args = some (.number (Strings.parseInt (Argument.text args 0)
      (Argument.orDefault args 1 10 fun c => Decimal.toUnsigned 32 c.toNumber))) :=
  answer?_eq rfl rfl rfl

theorem orDefault_radix {c : Cell} {base : ℕ} (h : base < 2 ^ 32) :
    Argument.orDefault [c, Strings.count base] 1 10 (fun c => Decimal.toUnsigned 32 c.toNumber) =
      base :=
  Decimal.toUnsigned_toFloat h (by decide)

theorem not_isNearest_notANumber (v : ℚ) : ¬ Decimal.IsNearest v notANumber := by
  have hof : Decimal.Binary.of notANumber = .nan := rfl
  rintro ⟨a, ha, -⟩
  rw [hof] at ha
  cases ha

/-- The answer is the double nearest to the integer exactly if the integer fits into 64 bits with a
sign; else it is not a number. -/
theorem parseInt_nearest_iff (now : Calendar.Moment) {base n : ℕ} {s : String} {negative : Bool}
    (hbase : 2 ≤ base ∧ base ≤ 36) (h : Strings.LeadingInteger base s.toList negative n) :
    ∃ x, answer? now "parse_int" [.text s, Strings.count base] = some (.number x) ∧
      (base = 10 → answer? now "parse_int" [.text s] = some (.number x)) ∧
      (Decimal.IsNearest (if negative then -(n : ℚ) else n) x ↔ n < 2 ^ 63) ∧
      (2 ^ 63 ≤ n → x = notANumber) := by
  refine ⟨Strings.parseInt s.toList base, ?_, ?_, ?_, ?_⟩
  · rw [answer?_parseInt, orDefault_radix (by omega)]
    rfl
  · rintro rfl
    exact answer?_parseInt now _
  all_goals rw [Strings.parseInt_of_leadingInteger hbase h]
  · by_cases hn : n < 2 ^ 63
    · have hlog : n.log2 < 1023 := by
        by_cases h0 : n = 0
        · subst h0
          decide
        · exact Nat.lt_of_lt_of_le ((Nat.log2_lt h0).2 hn) (by decide)
      rw [if_pos hn]
      exact iff_of_true (Decimal.isNearest_signed hlog negative) hn
    · rw [if_neg hn]
      exact iff_of_false (not_isNearest_notANumber _) hn
  · intro hn
    rw [if_neg (Nat.not_lt.2 hn)]

/-- The most negative integer whose answer is the nearest double. -/
theorem parseInt_nearest_iff_pixels :
    let now := Calendar.Moment.midnight ⟨0⟩
    (2 ≤ 10 ∧ 10 ≤ 36) ∧
    Strings.LeadingInteger 10 "-9223372036854775807px".toList true 9223372036854775807 ∧
    ∃ x, answer? now "parse_int" [.text "-9223372036854775807px", Strings.count 10] =
        some (.number x) ∧
      (10 = 10 → answer? now "parse_int" [.text "-9223372036854775807px"] = some (.number x)) ∧
      (Decimal.IsNearest (if true then -((9223372036854775807 : ℕ) : ℚ)
        else (9223372036854775807 : ℕ)) x ↔ 9223372036854775807 < 2 ^ 63) ∧
      (2 ^ 63 ≤ 9223372036854775807 → x = notANumber) := by
  intro now
  have hbase : 2 ≤ 10 ∧ 10 ≤ 36 := by decide
  have hleading :
      Strings.LeadingInteger 10 "-9223372036854775807px".toList true 9223372036854775807 :=
    ⟨['-'], "9223372036854775807".toList, "px".toList,
      [9, 2, 2, 3, 3, 7, 2, 0, 3, 6, 8, 5, 4, 7, 7, 5, 8, 0, 7],
      by decide, rfl, by decide, by decide, fun _ hc => by cases hc; rfl,
      by rfl⟩
  exact ⟨hbase, hleading, parseInt_nearest_iff now hbase hleading⟩

/-- The next number of as many digits is in the range of doubles, and is not read. -/
theorem not_forall_parseInt_nearest :
    ¬ ∀ (now : Calendar.Moment) (base n : ℕ) (s : String) (negative : Bool),
      2 ≤ base ∧ base ≤ 36 → Strings.LeadingInteger base s.toList negative n → n < 2 ^ 1023 →
      ∃ x, answer? now "parse_int" [.text s, Strings.count base] = some (.number x) ∧
        Decimal.IsNearest (if negative then -(n : ℚ) else n) x := by
  intro h
  have hleading : Strings.LeadingInteger 10 "9223372036854775808".toList false 9223372036854775808 :=
    ⟨[], "9223372036854775808".toList, [],
      [9, 2, 2, 3, 3, 7, 2, 0, 3, 6, 8, 5, 4, 7, 7, 5, 8, 0, 8],
      by decide, .inl rfl, by decide, by decide, nofun, by decide⟩
  obtain ⟨x, hanswer, hnearest⟩ :=
    h (Calendar.Moment.midnight ⟨0⟩) 10 _ _ false (by decide) hleading (by decide +kernel)
  have hradix : Argument.orDefault [.text "9223372036854775808", Strings.count 10] 1 10
      (fun c => Decimal.toUnsigned 32 c.toNumber) = 10 := orDefault_radix (by decide)
  rw [answer?_parseInt, hradix] at hanswer
  have hread : Strings.parseInt "9223372036854775808".toList 10 = notANumber := by
    rw [Strings.parseInt_of_leadingInteger (by decide) hleading, if_neg (by decide)]
  obtain rfl : notANumber = x := by
    rw [← hread]
    exact Cell.number.inj (Option.some.inj hanswer)
  exact not_isNearest_notANumber _ hnearest

end ColumnTree.Library
