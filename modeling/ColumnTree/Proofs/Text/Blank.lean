/-
# Trimming

`Bare s` says that `s` neither begins nor ends with a blank.  Trimming gives the one bare text that
is left when blanks are taken off both ends (`trim_append`, `exists_trim`).

No blank is a letter or a number, which has to be looked up in their tables.
-/
import ColumnTree.Text.Blank
import ColumnTree.Text.Letters

namespace ColumnTree.Text

/-- All characters are blanks. -/
def Blanks (s : List Char) : Prop :=
  ∀ c ∈ s, isBlank c = true

/-- No blank at the beginning and none at the end. -/
structure Bare (s : List Char) : Prop where
  head : ∀ c y, s = c :: y → isBlank c = false
  last : ∀ y c, s = y ++ [c] → isBlank c = false

theorem bare_of_forall {s : List Char} (h : ∀ c ∈ s, isBlank c = false) : Bare s := by
  refine ⟨fun c y heq => h c ?_, fun y c heq => h c ?_⟩
  · rw [heq]
    exact List.mem_cons_self ..
  · rw [heq]
    simp

theorem blanks_nil : Blanks [] := by
  intro c h
  cases h

theorem blanks_space : Blanks [' '] := by
  intro c h
  rw [List.mem_singleton.1 h]
  rfl

/-! ## What is trimmed -/

theorem trimEnd_append {s y : List Char} (hs : ∀ x c, s = x ++ [c] → isBlank c = false)
    (hy : Blanks y) : trimEnd (s ++ y) = s := by
  have hdrop : s.reverse.dropWhile isBlank = s.reverse := by
    cases hrev : s.reverse with
    | nil => rfl
    | cons c r =>
        refine List.dropWhile_cons_of_neg ?_
        rw [hs r.reverse c (by rw [← List.reverse_cons, ← hrev, List.reverse_reverse])]
        exact Bool.false_ne_true
  rw [trimEnd, List.reverse_append,
    List.dropWhile_append_of_pos fun c hc => hy c (List.mem_reverse.1 hc), hdrop,
    List.reverse_reverse]

/-- A bare text between blanks is what trimming leaves. -/
theorem trim_append {x s y : List Char} (hx : Blanks x) (hs : Bare s) (hy : Blanks y) :
    trim (x ++ s ++ y) = s := by
  have hstart : trimStart (x ++ s ++ y) = trimStart (s ++ y) := by
    rw [trimStart, List.append_assoc, List.dropWhile_append_of_pos hx]
    rfl
  rw [trim, hstart]
  cases s with
  | nil =>
      have : trimStart y = [] := by
        rw [trimStart, ← List.append_nil y, List.dropWhile_append_of_pos hy, List.dropWhile_nil]
      rw [List.nil_append, this]
      rfl
  | cons c r =>
      rw [trimStart, List.cons_append, List.dropWhile_cons_of_neg (by rw [hs.head c r rfl]; decide),
        ← List.cons_append]
      exact trimEnd_append hs.last hy

theorem trim_eq_self {s : List Char} (hs : Bare s) : trim s = s := by
  simpa using trim_append blanks_nil hs blanks_nil

theorem exists_trimEnd (s : List Char) : ∃ y, s = trimEnd s ++ y ∧ Blanks y := by
  refine ⟨(s.reverse.takeWhile isBlank).reverse, ?_, ?_⟩
  · rw [trimEnd, ← List.reverse_append, List.takeWhile_append_dropWhile, List.reverse_reverse]
  · intro c hc
    exact List.all_eq_true.1 List.all_takeWhile c (List.mem_reverse.1 hc)

/-- What is trimmed off is blanks. -/
theorem exists_trim (s : List Char) :
    ∃ x y, s = x ++ trim s ++ y ∧ Blanks x ∧ Blanks y := by
  obtain ⟨y, hy, hblank⟩ := exists_trimEnd (trimStart s)
  refine ⟨s.takeWhile isBlank, y, ?_, ?_, hblank⟩
  · rw [List.append_assoc, trim, ← hy, trimStart, List.takeWhile_append_dropWhile]
  · exact fun c hc => List.all_eq_true.1 List.all_takeWhile c hc

/-- Nothing is left of blanks, and of nothing else. -/
theorem trim_eq_nil_iff {s : List Char} : trim s = [] ↔ Blanks s := by
  constructor
  · intro h
    obtain ⟨x, y, heq, hx, hy⟩ := exists_trim s
    rw [heq, h, List.append_nil]
    exact fun c hc => (List.mem_append.1 hc).elim (hx c) (hy c)
  · intro h
    have hnil : Bare [] := ⟨nofun, fun y c heq => absurd heq.symm (by simp)⟩
    simpa using trim_append blanks_nil hnil h

/-- A character that is no blank keeps its place in front. -/
theorem head?_trim {c : Char} {s : List Char} (hc : isBlank c = false) (h : s.head? = some c) :
    (trim s).head? = some c := by
  obtain ⟨r, rfl⟩ := List.head?_eq_some_iff.1 h
  obtain ⟨x, y, heq, hx, hy⟩ := exists_trim (c :: r)
  have hblank : ¬ isBlank c = true := by simp [hc]
  have hstart : x = [] := by
    cases x with
    | nil => rfl
    | cons a x =>
        obtain ⟨rfl, -⟩ := List.cons.inj heq
        exact absurd (hx c (List.mem_cons_self ..)) hblank
  rw [hstart, List.nil_append] at heq
  cases htrim : trim (c :: r) with
  | nil =>
      rw [htrim, List.nil_append] at heq
      exact absurd (hy c (heq ▸ List.mem_cons_self ..)) hblank
  | cons a u =>
      rw [htrim] at heq
      exact congrArg some (List.cons.inj heq).1.symm

/-- What is left is bare. -/
theorem bare_trim (s : List Char) : Bare (trim s) := by
  constructor
  · intro c y heq
    obtain ⟨z, hz, -⟩ := exists_trimEnd (trimStart s)
    have hstart : s.dropWhile isBlank = c :: (y ++ z) := by
      rw [trim] at heq
      rw [heq] at hz
      exact hz
    have := List.head?_dropWhile_not isBlank s
    rwa [hstart] at this
  · intro y c heq
    have hend : (trimStart s).reverse.dropWhile isBlank = c :: y.reverse := by
      have : ((trimStart s).reverse.dropWhile isBlank).reverse = y ++ [c] := heq
      rw [← List.reverse_reverse ((trimStart s).reverse.dropWhile isBlank), this,
        List.reverse_append]
      rfl
    have := List.head?_dropWhile_not isBlank (trimStart s).reverse
    rwa [hend] at this

theorem trim_trim (s : List Char) : trim (trim s) = trim s :=
  trim_eq_self (bare_trim s)

/-! ## Blanks are no letters -/

theorem exists_of_bisect {bounds : Array (Nat × Nat)} {n lo hi : Nat} (hhi : hi ≤ bounds.size)
    (h : Runs.bisect bounds n lo hi = true) : ∃ b ∈ bounds.toList, b.1 ≤ n ∧ n ≤ b.2 := by
  fun_induction Runs.bisect bounds n lo hi with
  | case1 lo hi hlt mid first last hget hfirst ih => exact ih (by omega) h
  | case2 lo hi hlt mid first last hget hfirst hlast ih => exact ih hhi h
  | case3 lo hi hlt mid first last hget hfirst hlast =>
      have hmid : mid < bounds.size := by omega
      refine ⟨(first, last), ?_, by omega, by omega⟩
      rw [← hget, Array.getD_eq_getD_getElem?, Array.getElem?_eq_getElem hmid]
      exact Array.mem_toList_iff.2 (Array.getElem_mem hmid)
  | case4 lo hi hlt => cases h

/-- The blanks beyond ASCII. -/
def wideBlanks : List Nat :=
  [0x85, 0xA0, 0x1680, 0x2000, 0x2001, 0x2002, 0x2003, 0x2004, 0x2005, 0x2006, 0x2007, 0x2008,
    0x2009, 0x200A, 0x2028, 0x2029, 0x202F, 0x205F, 0x3000]

theorem mem_wideBlanks {c : Char} (h : isBlank c = true) (hwide : ¬ c.toNat < 0x80) :
    c.toNat ∈ wideBlanks := by
  simp only [isBlank, Bool.or_eq_true, Bool.and_eq_true, decide_eq_true_eq, beq_iff_eq] at h
  simp only [wideBlanks, List.mem_cons, List.not_mem_nil, or_false]
  omega

/-- A table none of whose runs has a wide blank. -/
def Runs.AvoidsBlanks (r : Runs) : Prop :=
  ∀ b ∈ r.bounds.toList, ∀ n ∈ wideBlanks, n < b.1 ∨ b.2 < n

theorem Runs.AvoidsBlanks.contains_eq_false {r : Runs} (hr : r.AvoidsBlanks) {c : Char}
    (h : c.toNat ∈ wideBlanks) : r.contains c = false := by
  rw [← Bool.not_eq_true]
  intro hc
  obtain ⟨b, hb, h₁, h₂⟩ := exists_of_bisect (Nat.le_refl _) hc
  have := hr b hb c.toNat h
  omega

/-- The table of a text, the text taken as a list of characters. -/
theorem Runs.avoidsBlanks_decode {s : String} {l : List Char} (hs : s = String.ofList l)
    (h : (Runs.ofSteps 0 (numerals l none)).all
      (fun b => wideBlanks.all fun n => n < b.1 || b.2 < n) = true) :
    (Runs.decode s).AvoidsBlanks := by
  intro b hb n hn
  rw [decode, hs, String.toList_ofList, List.toList_toArray] at hb
  have := List.all_eq_true.1 (List.all_eq_true.1 h b hb) n hn
  simpa using this

set_option maxRecDepth 100000 in
theorem avoidsBlanks_alphabeticRuns : alphabeticRuns.AvoidsBlanks :=
  Runs.avoidsBlanks_decode rfl (by decide +kernel)

set_option maxRecDepth 100000 in
theorem avoidsBlanks_numericRuns : numericRuns.AvoidsBlanks :=
  Runs.avoidsBlanks_decode rfl (by decide +kernel)

theorem toNat_of_isDigit {c : Char} (h : c.isDigit = true) : 48 ≤ c.toNat ∧ c.toNat ≤ 57 :=
  Char.isDigit_iff_toNat.1 h

theorem toNat_of_isAlpha {c : Char} (h : c.isAlpha = true) :
    (65 ≤ c.toNat ∧ c.toNat ≤ 90) ∨ (97 ≤ c.toNat ∧ c.toNat ≤ 122) := by
  rcases Bool.or_eq_true_iff.1 h with h | h
  · obtain ⟨hle, hge⟩ : c.val ≥ 'A'.val ∧ c.val ≤ 'Z'.val := of_decide_eq_true h
    exact .inl ⟨UInt32.le_iff_toNat_le.1 hle, UInt32.le_iff_toNat_le.1 hge⟩
  · obtain ⟨hle, hge⟩ := Bool.and_eq_true_iff.1 h
    exact .inr ⟨UInt32.le_iff_toNat_le.1 (of_decide_eq_true hle),
      UInt32.le_iff_toNat_le.1 (of_decide_eq_true hge)⟩

theorem isAlpha_or_isDigit_of_isBlank {c : Char} (h : isBlank c = true) :
    (c.isAlpha || c.isDigit) = false := by
  rw [← Bool.not_eq_true]
  intro hc
  simp only [isBlank, Bool.or_eq_true, Bool.and_eq_true, decide_eq_true_eq, beq_iff_eq] at h
  rcases Bool.or_eq_true_iff.1 hc with hc | hc
  · have := toNat_of_isAlpha hc
    omega
  · have := toNat_of_isDigit hc
    omega

/-- No blank is a letter or a number. -/
theorem isAlphanumeric_of_isBlank {c : Char} (h : isBlank c = true) :
    isAlphanumeric c = false := by
  by_cases hascii : c.toNat < 0x80
  · rw [isAlphanumeric, isAlphabetic, isNumeric, if_pos hascii, if_pos hascii]
    exact isAlpha_or_isDigit_of_isBlank h
  · have hwide := mem_wideBlanks h hascii
    rw [isAlphanumeric, isAlphabetic, isNumeric, if_neg hascii, if_neg hascii,
      Runs.AvoidsBlanks.contains_eq_false avoidsBlanks_alphabeticRuns hwide,
      Runs.AvoidsBlanks.contains_eq_false avoidsBlanks_numericRuns hwide]
    rfl

end ColumnTree.Text
