/-
# Looking for a text in a text

Six functions of the standard library look for a text or cut one at a place.  All that look for it
find the same occurrence, the first one (`Text.le_of_occursAt`); places are counts of characters, and
a count below `2 ^ 53` comes through its double unchanged.  So the place that `index_of` gives can be
passed on to `substring`, and `includes`, `startswith` and `replace` say what it says
(`search_agrees`).
-/
import ColumnTree.Proofs.Decimal.Counts
import ColumnTree.Proofs.Formula.Mentioned
import ColumnTree.Proofs.Library.LookUp

namespace ColumnTree

/-! ## Occurrences -/

namespace Text

variable {needle s before after : List Char}

/-- A text stands in another behind so many characters. -/
def OccursAt (needle s : List Char) (i : Nat) : Prop :=
  ∃ before after, s = before ++ needle ++ after ∧ before.length = i

theorem occursAt_zero_iff : OccursAt needle s 0 ↔ needle <+: s := by
  constructor
  · rintro ⟨before, after, rfl, hlen⟩
    rw [List.eq_nil_of_length_eq_zero hlen]
    exact List.prefix_append needle after
  · rintro ⟨after, rfl⟩
    exact ⟨[], after, rfl, rfl⟩

theorem occursAt_succ_iff {c : Char} {i : Nat} :
    OccursAt needle (c :: s) (i + 1) ↔ OccursAt needle s i := by
  constructor
  · rintro ⟨before, after, hs, hlen⟩
    obtain ⟨b, before, rfl⟩ := List.exists_cons_of_length_eq_add_one hlen
    exact ⟨before, after, (List.cons.inj hs).2, Nat.succ.inj hlen⟩
  · rintro ⟨before, after, rfl, rfl⟩
    exact ⟨c :: before, after, rfl, rfl⟩

/-- Nothing occurs before the cut. -/
theorem le_of_occursAt {i : Nat} (h : cutAt? needle s = some (before, after))
    (hi : OccursAt needle s i) : before.length ≤ i := by
  induction s generalizing before i with
  | nil =>
      obtain ⟨rfl, -⟩ := List.append_eq_nil_iff.1
        (List.append_eq_nil_iff.1 (eq_of_cutAt? h).symm).1
      exact Nat.zero_le i
  | cons c s ih =>
      rw [cutAt?] at h
      split at h
      · obtain ⟨rfl, -⟩ := Prod.mk.inj (Option.some.inj h)
        exact Nat.zero_le i
      · next hprefix =>
        obtain ⟨⟨b, a⟩, hcut, heq⟩ := Option.map_eq_some_iff.1 h
        obtain ⟨rfl, rfl⟩ := Prod.mk.inj heq
        cases i with
        | zero => exact absurd (List.isPrefixOf_iff_prefix.2 (occursAt_zero_iff.1 hi)) hprefix
        | succ i => exact Nat.succ_le_succ (ih hcut (occursAt_succ_iff.1 hi))

/-- What begins with a text is cut in front of it. -/
theorem isPrefixOf_iff_of_cutAt? (h : cutAt? needle s = some (before, after)) :
    needle.isPrefixOf s = true ↔ before.length = 0 := by
  rw [List.isPrefixOf_iff_prefix, ← occursAt_zero_iff]
  constructor
  · exact fun h0 => Nat.le_zero.1 (le_of_occursAt h h0)
  · exact fun h0 => ⟨before, after, eq_of_cutAt? h, h0⟩

end Text

/-! ## Counts as cells -/

namespace Library

namespace Strings

theorem count_inj {a b : Nat} (ha : a < 2 ^ 53) (hb : b < 2 ^ 53) : count a = count b ↔ a = b := by
  rw [count, count, Cell.number.injEq, Decimal.toFloat_inj ha hb]

theorem count_zero : count 0 = .number 0.0 := by
  rfl

theorem count_ne_negative {a : Nat} (ha : a < 2 ^ 53) : count a ≠ .number (-1.0) := by
  intro h
  have hword := congrArg Decimal.toWord? (Cell.number.inj h)
  rw [Decimal.toWord?_toFloat ha, show Decimal.toWord? (-1.0) = some (-1) by rfl] at hword
  have := Option.some.inj hword
  omega

theorem count_add_count {a b : Nat} (h : a + b < 2 ^ 53) :
    (count a).add (count b) = count (a + b) := by
  rw [count, count, count, ← Decimal.toFloat_add h]
  rfl

theorem bound_count {a n : Nat} (ha : a ≤ n) (hn : n < 2 ^ 53) : bound n (count a) = a := by
  rw [bound, count, Cell.toNumber, Decimal.toWord?_toFloat (by omega), Option.getD_some,
    Int.toNat_natCast, Nat.min_eq_left ha]

/-! ## Cutting at places -/

section Cutting

variable {s : String} {i j : Nat}

theorem substring_from (hi : i ≤ s.length) (hs : s.length < 2 ^ 53) :
    substring [.text s, count i] = cell (s.toList.drop i) := by
  have htake : (s.toList.drop i).take (s.toList.length - i) = s.toList.drop i :=
    List.take_of_length_le (Nat.le_of_eq List.length_drop)
  change cell (between s.toList (bound s.toList.length (count i)) s.toList.length) = _
  rw [String.length_toList, bound_count hi hs, between, Nat.min_eq_left hi, Nat.max_eq_right hi,
    ← String.length_toList, htake]

theorem substring_between (hij : i ≤ j) (hj : j ≤ s.length) (hs : s.length < 2 ^ 53) :
    substring [.text s, count i, count j] = cell ((s.toList.drop i).take (j - i)) := by
  change cell (between s.toList (bound s.toList.length (count i))
    (bound s.toList.length (count j))) = _
  rw [String.length_toList, bound_count (Nat.le_trans hij hj) hs, bound_count hj hs, between,
    Nat.min_eq_left hij, Nat.max_eq_right hij]

end Cutting

theorem cell_toList (s : String) : cell s.toList = .text s :=
  congrArg Cell.text String.ofList_toList

/-! ## What is found -/

theorem indexOf?_arguments (s needle : String) :
    Text.indexOf? (Argument.text [.text s, .text needle] 1)
        (Argument.text [.text s, .text needle] 0) =
      (Text.cutAt? needle.toList s.toList).map (·.1.length) := by
  rfl

section Found

variable {s needle : String} {before after : List Char}
  (h : Text.cutAt? needle.toList s.toList = some (before, after))

include h

theorem indexOf_of_cutAt? : indexOf [.text s, .text needle] = count before.length := by
  rw [indexOf, indexOf?_arguments, h]
  rfl

theorem length_of_cutAt? : before.length + needle.length + after.length = s.length := by
  rw [← String.length_toList, ← String.length_toList, Text.eq_of_cutAt? h, List.length_append,
    List.length_append]

variable (hs : s.length < 2 ^ 53)

include hs

theorem substring_before : substring [.text s, count 0, count before.length] = cell before := by
  have hlen := length_of_cutAt? h
  rw [substring_between (Nat.zero_le _) (by omega) hs, Text.eq_of_cutAt? h, List.append_assoc,
    List.drop_zero, Nat.sub_zero, List.take_left]

theorem substring_needle :
    substring [.text s, count before.length, count (before.length + needle.length)] =
      .text needle := by
  have hlen := length_of_cutAt? h
  rw [substring_between (Nat.le_add_right ..) (by omega) hs, Text.eq_of_cutAt? h,
    List.append_assoc, List.drop_left, Nat.add_sub_cancel_left, ← String.length_toList,
    List.take_left, cell_toList]

theorem substring_after :
    substring [.text s, count (before.length + needle.length)] = cell after := by
  have hlen := length_of_cutAt? h
  rw [substring_from (by omega) hs, Text.eq_of_cutAt? h, ← String.length_toList,
    ← List.length_append, List.drop_left]

end Found

theorem indexOf_of_absent {s needle : String} (h : Text.cutAt? needle.toList s.toList = none) :
    indexOf [.text s, .text needle] = .number (-1.0) := by
  rw [indexOf, indexOf?_arguments, h]
  rfl

end Strings

/-! ## Agreement -/

/-- What a standard function answers. -/
def answer? (now : Calendar.Moment) (name : String) (args : List Cell) : Option Cell :=
  ((standard now).find? name).map (·.apply args)

theorem answer?_eq {now : Calendar.Moment} {name : String} {args : List Cell} {c : Cell}
    (h : (Strings.routines.reverse.find? (·.name == name)).map (·.apply args) = some c)
    (hpatterns : Patterns.routines.reverse.find? (·.name == name) = none)
    (hdates : (Dates.routines now).reverse.find? (·.name == name) = none) :
    answer? now name args = some c := by
  obtain ⟨f, hf, rfl⟩ := Option.map_eq_some_iff.1 h
  rw [answer?, find?_standard hf hpatterns hdates]
  rfl

section Answers

variable (now : Calendar.Moment) (s needle new : String)

theorem answer?_indexOf : answer? now "index_of" [.text s, .text needle] =
    some (Strings.indexOf [.text s, .text needle]) :=
  answer?_eq rfl rfl rfl

theorem answer?_includes : answer? now "includes" [.text s, .text needle] =
    some (.bool (Text.occurs needle.toList s.toList)) :=
  answer?_eq rfl rfl rfl

theorem answer?_startswith : answer? now "startswith" [.text s, .text needle] =
    some (.bool (needle.toList.isPrefixOf s.toList)) :=
  answer?_eq rfl rfl rfl

theorem answer?_length : answer? now "length" [.text s] = some (Strings.count s.length) :=
  answer?_eq rfl rfl rfl

theorem answer?_substring (args : List Cell) :
    answer? now "substring" args = some (Strings.substring args) :=
  answer?_eq rfl rfl rfl

theorem answer?_replace : answer? now "replace" [.text s, .text needle, .text new] =
    some (Strings.cell (Text.replaceFirst needle.toList new.toList s.toList)) :=
  answer?_eq rfl rfl rfl

end Answers

/-- The functions that look for a text agree. -/
theorem search_agrees (now : Calendar.Moment) (s needle new : String) (hs : s.length < 2 ^ 53) :
    ∃ place size, answer? now "index_of" [.text s, .text needle] = some place ∧
      answer? now "length" [.text needle] = some size ∧
      (place = .number (-1.0) ↔
        answer? now "includes" [.text s, .text needle] = some (.bool false)) ∧
      (place = .number (-1.0) →
        answer? now "replace" [.text s, .text needle, .text new] = some (.text s)) ∧
      (place ≠ .number (-1.0) →
        answer? now "includes" [.text s, .text needle] = some (.bool true) ∧
        (∃ i : Nat, place = .number i.toFloat ∧ Text.OccursAt needle.toList s.toList i ∧
          ∀ j, Text.OccursAt needle.toList s.toList j → i ≤ j) ∧
        answer? now "substring" [.text s, place, place.add size] = some (.text needle) ∧
        (place = .number 0.0 ↔
          answer? now "startswith" [.text s, .text needle] = some (.bool true)) ∧
        ∃ before after, answer? now "substring" [.text s, .number 0.0, place] = some (.text before) ∧
          answer? now "substring" [.text s, place.add size] = some (.text after) ∧
          answer? now "replace" [.text s, .text needle, .text new] =
            some (.text (before ++ new ++ after))) := by
  refine ⟨_, _, answer?_indexOf .., answer?_length .., ?_⟩
  rw [answer?_includes, answer?_startswith, answer?_replace, Text.occurs, Text.replaceFirst]
  cases hcut : Text.cutAt? needle.toList s.toList with
  | none =>
      rw [Strings.indexOf_of_absent hcut]
      exact ⟨iff_of_true rfl rfl, fun _ => congrArg some (Strings.cell_toList s),
        fun hne => absurd rfl hne⟩
  | some cut =>
      obtain ⟨before, after⟩ := cut
      have hlen := Strings.length_of_cutAt? hcut
      have hplace : before.length < 2 ^ 53 := by omega
      have hne := Strings.count_ne_negative hplace
      rw [Strings.indexOf_of_cutAt? hcut, Strings.count_add_count (by omega), ← Strings.count_zero]
      refine ⟨iff_of_false hne (by simp), fun h => absurd h hne, fun _ => ⟨rfl, ?_, ?_, ?_, ?_⟩⟩
      · exact ⟨before.length, rfl, ⟨before, after, Text.eq_of_cutAt? hcut, rfl⟩,
          fun j hj => Text.le_of_occursAt hcut hj⟩
      · rw [answer?_substring, Strings.substring_needle hcut hs]
      · rw [Strings.count_inj hplace (by decide), Option.some.injEq, Cell.bool.injEq,
          Text.isPrefixOf_iff_of_cutAt? hcut]
      · refine ⟨.ofList before, .ofList after, ?_, ?_, ?_⟩
        · rw [answer?_substring, Strings.substring_before hcut hs, Strings.cell]
        · rw [answer?_substring, Strings.substring_after hcut hs, Strings.cell]
        · rw [Strings.cell, String.ofList_append, String.ofList_append, String.ofList_toList]

/-- The place of a text that overlaps itself, in characters and not in bytes. -/
theorem search_agrees_overlapping :
    let now := Calendar.Moment.midnight ⟨0⟩
    let place := Cell.number 1.0
    "äñañaña".length < 2 ^ 53 ∧
    answer? now "index_of" [.text "äñañaña", .text "ñañ"] = some place ∧
    ∃ size, answer? now "length" [.text "ñañ"] = some size ∧
      answer? now "includes" [.text "äñañaña", .text "ñañ"] = some (.bool true) ∧
      answer? now "substring" [.text "äñañaña", place, place.add size] = some (.text "ñañ") ∧
      ∃ before after,
        answer? now "substring" [.text "äñañaña", .number 0.0, place] = some (.text before) ∧
        answer? now "substring" [.text "äñañaña", place.add size] = some (.text after) ∧
        answer? now "replace" [.text "äñañaña", .text "ñañ", .text "é"] =
          some (.text (before ++ "é" ++ after)) := by
  intro now place
  have hlen : "äñañaña".length < 2 ^ 53 := by decide
  have hcut : Text.cutAt? "ñañ".toList "äñañaña".toList = some (['ä'], ['a', 'ñ', 'a']) := by
    decide
  have hone : Strings.count 1 = place := by rfl
  have hplace : answer? now "index_of" [.text "äñañaña", .text "ñañ"] = some place := by
    rw [answer?_indexOf, Strings.indexOf_of_cutAt? hcut]
    exact congrArg some hone
  have hne : place ≠ .number (-1.0) := hone ▸ Strings.count_ne_negative (by decide)
  obtain ⟨found, size, hfound, hsize, -, -, hagrees⟩ :=
    search_agrees now "äñañaña" "ñañ" "é" hlen
  obtain rfl := Option.some.inj (hplace.symm.trans hfound)
  obtain ⟨hincludes, -, hneedle, -, hreplace⟩ := hagrees hne
  exact ⟨hlen, hplace, size, hsize, hincludes, hneedle, hreplace⟩

end Library

end ColumnTree
