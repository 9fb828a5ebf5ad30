/-
# Taking texts apart

Two functions of the standard library take a text apart, and neither loses anything of it.  `split`
cuts at the occurrences of a separator, always at the first one that is left, so that none is left in
a piece (`Text.not_isPart_of_mem_pieces`); with the separator between them `join` makes the text of
the pieces again.

`substring` cuts at a place, which any cell gives: the place is looked up in the same way whether the
part in front of it is asked for or the part behind it, and which of two places comes first does not
matter (`between_comm`).
-/
import ColumnTree.Proofs.Library.Search

namespace ColumnTree

/-! ## Separators -/

namespace Text

variable {sep s x : List Char}

theorem join_singletons (s : List Char) : join [] (s.map fun c => [c]) = s := by
  induction s with
  | nil => rfl
  | cons c s ih =>
      cases s with
      | nil => rfl
      | cons d s =>
          rw [List.map_cons, List.map_cons, join_cons_cons]
          exact congrArg (c :: ·) ih

theorem pieces_ne_nil (hsep : sep ≠ []) (s : List Char) : pieces sep s ≠ [] := by
  rw [pieces, dif_neg hsep]
  split <;> exact List.cons_ne_nil _ _

/-- Joining the pieces with the separator undoes the cuts. -/
theorem join_pieces (sep s : List Char) : join sep (pieces sep s) = s := by
  fun_induction pieces sep s with
  | case1 s hsep =>
      rw [hsep]
      exact join_singletons s
  | case2 s => rfl
  | case3 s hsep before after hcut _ ih =>
      obtain ⟨x, xs, hpieces⟩ := List.exists_cons_of_ne_nil (pieces_ne_nil hsep after)
      rw [hpieces] at ih ⊢
      rw [join_cons_cons, ih, ← eq_of_cutAt? hcut]

/-- The text in front of the first occurrence has none in it. -/
theorem not_isPart_of_cutAt? {before after : List Char} (hsep : sep ≠ [])
    (h : cutAt? sep s = some (before, after)) : ¬ sep <:+: before := by
  rintro ⟨x, y, hbefore⟩
  have hocc : OccursAt sep s x.length := by
    refine ⟨x, y ++ sep ++ after, ?_, rfl⟩
    rw [eq_of_cutAt? h, ← hbefore]
    simp only [List.append_assoc]
  have hle := le_of_occursAt h hocc
  have hpos := List.length_pos_iff.2 hsep
  rw [← hbefore, List.length_append, List.length_append] at hle
  omega

/-- The separator is in no piece. -/
theorem not_isPart_of_mem_pieces (hsep : sep ≠ []) (h : x ∈ pieces sep s) : ¬ sep <:+: x := by
  fun_induction pieces sep s with
  | case1 s hnil => exact absurd hnil hsep
  | case2 s _ hcut =>
      obtain rfl := List.mem_singleton.1 h
      rw [← occurs_iff_isPart, occurs, hcut]
      exact Bool.false_ne_true
  | case3 s _ before after hcut _ ih =>
      rcases List.mem_cons.1 h with rfl | hx
      · exact not_isPart_of_cutAt? hsep hcut
      · exact ih hx

end Text

namespace Library

/-! ## Pieces -/

namespace Strings

theorem split_texts (s sep : String) : split [.text s, .text sep] =
    .list ((Text.pieces sep.toList s.toList).map cell) := by
  exact congrArg (fun xs => Cell.list (xs.map cell)) List.take_length

theorem join_cells (xs : List (List Char)) (sep : String) :
    join [.list (xs.map cell), .text sep] = cell (Text.join sep.toList xs) := by
  have htexts : (xs.map cell).map (·.toText.toList) = xs := by
    rw [List.map_map]
    exact List.map_id'' (fun x => String.toList_ofList) xs
  change cell (Text.join sep.toList ((xs.map cell).map (·.toText.toList))) = _
  rw [htexts]

/-! ## Places -/

theorem between_comm (s : List Char) (i j : Nat) : between s i j = between s j i := by
  rw [between, between, Nat.min_comm, Nat.max_comm]

theorem between_zero (s : List Char) (i : Nat) : between s 0 i = s.take i := by
  rw [between, Nat.zero_min, Nat.zero_max, Nat.sub_zero, List.drop_zero]

theorem between_length {s : List Char} {i : Nat} (hi : i ≤ s.length) :
    between s i s.length = s.drop i := by
  rw [between, Nat.min_eq_left hi, Nat.max_eq_right hi]
  exact List.take_of_length_le (Nat.le_of_eq List.length_drop)

theorem bound_le (n : Nat) (c : Cell) : bound n c ≤ n :=
  Nat.min_le_right ..

theorem bound_zero (n : Nat) : bound n (.number 0.0) = 0 := by
  have hword : Decimal.toWord? (Cell.number 0.0).toNumber = some 0 :=
    @Decimal.toWord?_toFloat 0 (by decide)
  rw [bound, hword]
  exact Nat.zero_min n

section Bounds

variable (s : String) (a : Cell) {b : Cell}

theorem substring_bounds (hb : b ≠ .null) : substring [.text s, a, b] =
    cell (between s.toList (bound s.toList.length a) (bound s.toList.length b)) := by
  cases b with
  | null => exact absurd rfl hb
  | _ => rfl

theorem substring_bound : substring [.text s, a] =
    cell (s.toList.drop (bound s.toList.length a)) := by
  rw [← between_length (bound_le _ a)]
  rfl

theorem substring_zero (hb : b ≠ .null) : substring [.text s, .number 0.0, b] =
    cell (s.toList.take (bound s.toList.length b)) := by
  rw [substring_bounds s _ hb, bound_zero, between_zero]

end Bounds

end Strings

section Answers

variable (now : Calendar.Moment)

theorem answer?_split (args : List Cell) : answer? now "split" args = some (Strings.split args) :=
  answer?_eq rfl rfl rfl

theorem answer?_join (args : List Cell) : answer? now "join" args = some (Strings.join args) :=
  answer?_eq rfl rfl rfl

end Answers

/-! ## Nothing is lost -/

/-- A text is split into texts without the separator, which joined with it make the text again. -/
theorem join_split (now : Calendar.Moment) (s sep : String) :
    ∃ items, answer? now "split" [.text s, .text sep] = some (.list items) ∧
      (∀ item ∈ items, ∃ x : String, item = .text x ∧ (sep ≠ "" → ¬ sep.toList <:+: x.toList)) ∧
      answer? now "join" [.list items, .text sep] = some (.text s) := by
  refine ⟨(Text.pieces sep.toList s.toList).map Strings.cell, ?_, ?_, ?_⟩
  · rw [answer?_split, Strings.split_texts]
  · intro item hitem
    obtain ⟨x, hx, rfl⟩ := List.mem_map.1 hitem
    refine ⟨.ofList x, rfl, fun hsep => ?_⟩
    rw [String.toList_ofList]
    exact Text.not_isPart_of_mem_pieces (fun hnil => hsep (String.toList_eq_nil_iff.1 hnil)) hx
  · rw [answer?_join, Strings.join_cells, Text.join_pieces, Strings.cell_toList]

/-- A separator that overlaps itself is cut out from the left. -/
example : Text.pieces "aa".toList "aaaba".toList = ["".toList, "aba".toList] := by
  cbv

/-- A text is cut at any cell without loss, and two cells cut out of it the same part in either
order. -/
theorem substring_cuts (now : Calendar.Moment) (s : String) {a b : Cell} (ha : a ≠ .null)
    (hb : b ≠ .null) :
    (∃ part, answer? now "substring" [.text s, a, b] = some (.text part) ∧
      answer? now "substring" [.text s, b, a] = some (.text part)) ∧
    ∃ front back, answer? now "substring" [.text s, .number 0.0, a] = some (.text front) ∧
      answer? now "substring" [.text s, a] = some (.text back) ∧ front ++ back = s := by
  simp only [answer?_substring]
  constructor
  · refine ⟨_, congrArg some (Strings.substring_bounds s a hb), ?_⟩
    rw [Strings.substring_bounds s b ha, Strings.between_comm]
    rfl
  · refine ⟨_, _, congrArg some (Strings.substring_zero s ha),
      congrArg some (Strings.substring_bound s a), ?_⟩
    rw [← String.ofList_append, List.take_append_drop, String.ofList_toList]

/-- What is not a number cuts in front of everything, and a negative number does too. -/
theorem substring_cuts_notANumber :
    let now := Calendar.Moment.midnight ⟨0⟩
    Cell.list [] ≠ .null ∧ Cell.number (-2.5) ≠ .null ∧
    (∃ part, answer? now "substring" [.text "añb", .list [], .number (-2.5)] = some (.text part) ∧
      answer? now "substring" [.text "añb", .number (-2.5), .list []] = some (.text part)) ∧
    ∃ front back,
      answer? now "substring" [.text "añb", .number 0.0, .list []] = some (.text front) ∧
      answer? now "substring" [.text "añb", .list []] = some (.text back) ∧
      front ++ back = "añb" := by
  intro now
  have ha : Cell.list [] ≠ .null := Cell.noConfusion
  have hb : Cell.number (-2.5) ≠ .null := Cell.noConfusion
  exact ⟨ha, hb, substring_cuts now "añb" ha hb⟩

end Library

end ColumnTree
