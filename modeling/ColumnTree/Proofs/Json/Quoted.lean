/-
# Strings are read back

A string that was written with its quotes is read as that string, whatever stands after it.  So the
text of a string says where the string ends and what it is.
-/
import ColumnTree.Json.Printer
import ColumnTree.Json.Reader

namespace ColumnTree.Json

/-! ## Characters -/

theorem hexValue?_hexDigit (n : Nat) : hexValue? (hexDigit n) = some (n % 16) :=
  (by decide : ∀ k < 16, hexValue? (Nat.digitChar k) = some k) (n % 16)
    (Nat.mod_lt _ (by decide))

/-- The escape of a control character is read back. -/
theorem unicodeEscape_control {c : Char} (hc : c.toNat < 0x20) (x : List Char) :
    unicodeEscape ('0' :: '0' :: hexDigit (c.toNat / 16) :: hexDigit c.toNat :: x) =
      some (c, x) := by
  have hzero : hexValue? '0' = some 0 := by decide
  have hvalue : c.toNat / 16 % 16 * 16 + c.toNat % 16 = c.toNat := by omega
  have hlow : ¬ 0xDC00 ≤ c.toNat := by omega
  have hhigh : ¬ 0xD800 ≤ c.toNat := by omega
  simp [unicodeEscape, hex4, hzero, hexValue?_hexDigit, hvalue, hlow, hhigh]

theorem string_unicode (done : List Char) (fuel : Nat) {c : Char} {s x : List Char}
    (h : unicodeEscape s = some (c, x)) :
    string done (fuel + 1) ('\\' :: 'u' :: s) = string (c :: done) fuel x := by
  rw [string, if_neg (by decide), if_pos rfl, h]

/-- What is written for a character is read as that character. -/
theorem string_escape (done : List Char) (fuel : Nat) (c : Char) (x : List Char) :
    string done (fuel + 1) (escape c ++ x) = string (c :: done) fuel x := by
  unfold escape
  split
  iterate 7 rfl
  next hquote hback _ _ _ _ _ =>
    split
    · next hcontrol =>
      rw [← string_unicode done fuel (unicodeEscape_control hcontrol x)]
      rfl
    · next hcontrol =>
      show (if c = '"' then _ else if c = '\\' then _ else if c.toNat < 0x20 then none
        else string (c :: done) fuel x) = _
      rw [if_neg hquote, if_neg hback, if_neg hcontrol]

/-! ## Strings -/

/-- The characters of a string up to its closing quote are read back. -/
theorem string_escaped {fuel : Nat} {s : List Char} (hfuel : s.length < fuel) (done x : List Char) :
    string done fuel (s.flatMap escape ++ '"' :: x) = some (String.ofList (done.reverse ++ s), x) := by
  induction s generalizing done fuel with
  | nil =>
      cases fuel with
      | zero => cases hfuel
      | succ fuel =>
          rw [List.append_nil]
          rfl
  | cons c s ih =>
      cases fuel with
      | zero => cases hfuel
      | succ fuel =>
          rw [List.flatMap_cons, List.append_assoc, string_escape,
            ih (Nat.lt_of_succ_lt_succ hfuel)]
          simp

/-- A string and what stands after it are determined by the text. -/
theorem escaped_inj {s t x y : List Char}
    (h : s.flatMap escape ++ '"' :: x = t.flatMap escape ++ '"' :: y) : s = t ∧ x = y := by
  have hs := @string_escaped (s.length + t.length + 1) s (by omega) [] x
  rw [h, string_escaped (by omega)] at hs
  obtain ⟨heq, rfl⟩ := Prod.mk.inj (Option.some.inj hs)
  exact ⟨(String.ofList_injective heq).symm, rfl⟩

end ColumnTree.Json
