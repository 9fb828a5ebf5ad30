/-
# Numbers are read back

A number that has been read up to the end of a text is read in the same way before any text that it
cannot go on into (`number_append`).  Integers of 64 bits are read back as they were written
(`number_int`).  Of doubles this is not always so, since those of many digits are not read as the
nearest double: `ReadsBack` says of a double that it is.
-/
import ColumnTree.Json.Printer
import ColumnTree.Json.Reader
import Mathlib.Data.List.TakeWhile

namespace ColumnTree.Json

/-- No number goes on into this text. -/
def Ends (x : List Char) : Prop :=
  x.head?.all (fun c => !(c.isDigit || c == '.' || c == 'e' || c == 'E')) = true

theorem ends_cons_iff {c : Char} {x : List Char} :
    Ends (c :: x) ↔ c.isDigit = false ∧ c ≠ '.' ∧ c ≠ 'e' ∧ c ≠ 'E' := by
  simp [Ends, and_assoc]

/-! ## Digits -/

section Digits

variable {s x : List Char} (hx : Ends x)

include hx

theorem takeWhile_append_of_ends :
    (s ++ x).takeWhile Char.isDigit = s.takeWhile Char.isDigit := by
  induction s with
  | nil =>
      cases x with
      | nil => rfl
      | cons c x => simp [(ends_cons_iff.1 hx).1]
  | cons c s ih =>
      rw [List.cons_append, List.takeWhile_cons, List.takeWhile_cons, ih]

theorem dropWhile_append_of_ends :
    (s ++ x).dropWhile Char.isDigit = s.dropWhile Char.isDigit ++ x := by
  induction s with
  | nil =>
      cases x with
      | nil => rfl
      | cons c x => simp [(ends_cons_iff.1 hx).1]
  | cons c s ih =>
      rw [List.cons_append, List.dropWhile_cons, List.dropWhile_cons, ih]
      split <;> rfl

end Digits

/-! ## The parts of a number -/

/-- Is there a sign, and what stands behind it? -/
def signPart : List Char → Bool × List Char
  | '-' :: r => (true, r)
  | r => (false, r)

/-- The digits behind a point, if there is one. -/
def fractionPart : List Char → Option (List Char × List Char)
  | '.' :: r =>
    if (r.takeWhile Char.isDigit).isEmpty then none
    else some (r.takeWhile Char.isDigit, r.dropWhile Char.isDigit)
  | r => some ([], r)

/-- The number with these digits and the exponent that follows, if there is one. -/
def lastPart (negative : Bool) (whole fraction : List Char) (s : List Char) :
    Option (Json × List Char) :=
  let signed := fun x : Float => float (if negative then -x else x)
  match s with
  | c :: r =>
    if c = 'e' || c = 'E' then
      (exponentPart r).map fun (e, r) => (signed (decimal whole fraction e), r)
    else some (number.plain negative whole fraction signed, s)
  | [] => some (number.plain negative whole fraction signed, [])

/-- Is there a sign in front of an exponent, and what stands behind it? -/
def exponentSign : List Char → Bool × List Char
  | '-' :: r => (true, r)
  | '+' :: r => (false, r)
  | r => (false, r)

theorem exponentPart_eq (s : List Char) : exponentPart s =
    let ds := (exponentSign s).2.takeWhile Char.isDigit
    let n : Int := ds.foldl (fun n c => 10 * n + digit c) 0
    if ds.isEmpty then none
    else some (if (exponentSign s).1 then -n else n, (exponentSign s).2.dropWhile Char.isDigit) :=
  rfl

/-- A number is its sign, its digits, those behind the point and the exponent. -/
theorem number_eq (s : List Char) : number s =
    let whole := (signPart s).2.takeWhile Char.isDigit
    if whole.isEmpty || (whole.length != 1 && whole.head? == some '0') then none
    else match fractionPart ((signPart s).2.dropWhile Char.isDigit) with
      | none => none
      | some (fraction, r) => lastPart (signPart s).1 whole fraction r :=
  rfl

section Append

variable {s r x : List Char} (hx : Ends x)

theorem signPart_append (hs : s ≠ []) :
    signPart (s ++ x) = ((signPart s).1, (signPart s).2 ++ x) := by
  cases s with
  | nil => exact absurd rfl hs
  | cons c s =>
      rw [List.cons_append]
      unfold signPart
      by_cases hminus : c = '-'
      · subst hminus
        rfl
      · simp [hminus]

theorem exponentSign_append (hs : s ≠ []) :
    exponentSign (s ++ x) = ((exponentSign s).1, (exponentSign s).2 ++ x) := by
  cases s with
  | nil => exact absurd rfl hs
  | cons c s =>
      rw [List.cons_append]
      unfold exponentSign
      by_cases hminus : c = '-'
      · subst hminus
        rfl
      · by_cases hplus : c = '+'
        · subst hplus
          rfl
        · simp [hminus, hplus]

include hx

theorem fractionPart_append {fraction : List Char} (h : fractionPart s = some (fraction, r)) :
    fractionPart (s ++ x) = some (fraction, r ++ x) := by
  unfold fractionPart at h
  split at h
  · split at h
    · cases h
    · next hempty =>
      cases h
      rw [List.cons_append, fractionPart, takeWhile_append_of_ends hx, if_neg hempty,
        dropWhile_append_of_ends hx]
  · next hdot =>
    cases h
    unfold fractionPart
    split
    · next heq =>
      -- The point would have to be the first character of one of the two.
      cases s with
      | nil =>
          rw [List.nil_append] at heq
          subst heq
          exact absurd rfl (ends_cons_iff.1 hx).2.1
      | cons c s =>
          obtain ⟨rfl, -⟩ := List.cons.inj heq
          exact absurd rfl (hdot s)
    · rfl

theorem exponentPart_append {e : Int} (h : exponentPart s = some (e, r)) :
    exponentPart (s ++ x) = some (e, r ++ x) := by
  have hs : s ≠ [] := by
    rintro rfl
    cases h
  rw [exponentPart_eq] at h ⊢
  rw [exponentSign_append hs, takeWhile_append_of_ends hx, dropWhile_append_of_ends hx]
  dsimp only at h ⊢
  split at h
  · cases h
  · next hempty =>
    cases h
    rw [if_neg hempty]

theorem lastPart_append {negative : Bool} {whole fraction : List Char} {j : Json}
    (h : lastPart negative whole fraction s = some (j, r)) :
    lastPart negative whole fraction (s ++ x) = some (j, r ++ x) := by
  cases s with
  | nil =>
      cases h
      cases x with
      | nil => rfl
      | cons c x =>
          obtain ⟨-, -, he, hE⟩ := ends_cons_iff.1 hx
          simp [lastPart, he, hE]
  | cons c s =>
      rw [List.cons_append]
      unfold lastPart at h ⊢
      dsimp only at h ⊢
      split at h
      · next hc =>
        obtain ⟨⟨e, t⟩, he, heq⟩ := Option.map_eq_some_iff.1 h
        cases heq
        rw [if_pos hc, exponentPart_append hx he]
        rfl
      · next hc =>
        cases h
        rw [if_neg hc]
        rfl

/-- A number is read in the same way before a text that it cannot go on into. -/
theorem number_append {j : Json} (h : number s = some (j, r)) :
    number (s ++ x) = some (j, r ++ x) := by
  have hs : s ≠ [] := by
    rintro rfl
    cases h
  rw [number_eq] at h ⊢
  rw [signPart_append hs, takeWhile_append_of_ends hx, dropWhile_append_of_ends hx]
  dsimp only at h ⊢
  split at h
  · cases h
  · next hwhole =>
    split at h
    · cases h
    · next fraction t hfraction =>
      rw [if_neg hwhole, fractionPart_append hx hfraction]
      exact lastPart_append hx h

end Append

/-! ## Integers -/

theorem foldl_toDigits (n : Nat) :
    (Nat.toDigits 10 n).foldl (fun n c => 10 * n + digit c) 0 = n :=
  Nat.ofDigitChars_eq_foldl.symm.trans Nat.ofDigitChars_ten_toDigits

/-- Only a zero begins with a zero. -/
theorem head?_toDigits {n : Nat} (hn : 0 < n) : (Nat.toDigits 10 n).head? ≠ some '0' := by
  induction n using Nat.strongRecOn with
  | _ n ih =>
    rw [Nat.toDigits_eq_if (by decide)]
    split
    · simp; omega
    · next hlarge =>
      rw [List.head?_append, Option.or_of_isSome (by simp)]
      exact ih (n / 10) (by omega) (by omega)

/-- Digits are all that is read, and there is no zero in front of others. -/
theorem whole_toDigits (n : Nat) :
    ((Nat.toDigits 10 n).isEmpty || ((Nat.toDigits 10 n).length != 1 &&
      (Nat.toDigits 10 n).head? == some '0')) = false := by
  cases n with
  | zero => rfl
  | succ n => simp [head?_toDigits]

theorem number_digits {s : List Char} {n : Nat} (hs : (signPart s).2 = Nat.toDigits 10 n) :
    number s = some (number.plain (signPart s).1 (Nat.toDigits 10 n) []
      (fun x => float (if (signPart s).1 then -x else x)), []) := by
  have hdigit : ∀ c ∈ Nat.toDigits 10 n, c.isDigit = true := fun c hc =>
    Nat.isDigit_of_mem_toDigits (by decide) (by decide) hc
  have htake : (Nat.toDigits 10 n).takeWhile Char.isDigit = Nat.toDigits 10 n :=
    List.takeWhile_eq_self_iff.2 hdigit
  have hdrop : (Nat.toDigits 10 n).dropWhile Char.isDigit = [] := List.dropWhile_eq_nil_iff.2 hdigit
  rw [number_eq]
  dsimp only
  rw [hs, htake, hdrop, if_neg (by simp [whole_toDigits])]
  rfl

theorem signPart_toDigits (n : Nat) :
    signPart (Nat.toDigits 10 n) = (false, Nat.toDigits 10 n) := by
  unfold signPart
  split
  · next r heq =>
    have hminus : '-' ∈ Nat.toDigits 10 n := by
      rw [heq]
      exact List.mem_cons_self ..
    cases Nat.isDigit_of_mem_toDigits (by decide) (by decide) hminus
  · rfl

theorem number_nat {n : Nat} (hn : n < twoTo 64) :
    number (Nat.toDigits 10 n) = some (int n, []) := by
  have hsign := signPart_toDigits n
  rw [number_digits (congrArg Prod.snd hsign), hsign]
  simp [number.plain, foldl_toDigits, hn]

theorem number_negative {n : Nat} (hpos : 0 < n) (hn : n ≤ twoTo 63) :
    number ('-' :: Nat.toDigits 10 n) = some (int (-n), []) := by
  have hlt : n < twoTo 64 := Nat.lt_of_le_of_lt hn (by decide)
  rw [number_digits (s := '-' :: Nat.toDigits 10 n) rfl]
  simp [number.plain, foldl_toDigits, signPart, hpos.ne', hlt, hn]

/-- An integer of 64 bits is read back. -/
theorem number_int {n : Int} (hlow : -(twoTo 63 : Int) ≤ n) (hhigh : n < twoTo 64) :
    number (toString n).toList = some (int n, []) := by
  rw [Int.toString_eq_repr, Int.repr_eq_if]
  split
  · next hn =>
    rw [Nat.toList_repr, number_nat (by omega), Int.toNat_of_nonneg hn]
  · next hn =>
    have htext : ("-" ++ (-n).toNat.repr).toList = '-' :: Nat.toDigits 10 (-n).toNat := by
      rw [String.toList_append, Nat.toList_repr]
      rfl
    rw [htext, number_negative (by omega) (by omega), Int.toNat_of_nonneg (by omega), Int.neg_neg]

/-- What is read as a number begins with a sign or a digit. -/
theorem head_of_number {c : Char} {s : List Char} (h : (number (c :: s)).isSome = true) :
    c = '-' ∨ c.isDigit = true := by
  by_contra hc
  rw [not_or, Bool.not_eq_true] at hc
  have hsign : signPart (c :: s) = (false, c :: s) := by
    unfold signPart
    simp [hc.1]
  rw [number_eq, hsign] at h
  simp [hc.2] at h

/-! ## Doubles -/

/-- Is a double read back as it was written? -/
def ReadsBack (x : Float) : Prop :=
  number (writeFloat x) = some (float x, [])

end ColumnTree.Json
