/-
# Finding, cutting and joining texts

All of it rests on one function: `cutAt? needle s` is what stands before and after the first
occurrence of `needle` in `s`.  Nothing is lost at a cut (`eq_of_cutAt?`), and so the pieces between
the occurrences of a separator get shorter and shorter.
-/

namespace ColumnTree.Text

/-- The text before and after the first occurrence of `needle`. -/
def cutAt? (needle : List Char) : List Char → Option (List Char × List Char)
  | [] => if needle.isEmpty then some ([], []) else none
  | c :: rest =>
    if needle.isPrefixOf (c :: rest) then some ([], (c :: rest).drop needle.length)
    else (cutAt? needle rest).map fun cut => (c :: cut.1, cut.2)

/-- A cut takes out the needle and nothing else. -/
theorem eq_of_cutAt? {needle s before after : List Char}
    (h : cutAt? needle s = some (before, after)) : s = before ++ needle ++ after := by
  induction s generalizing before after with
  | nil =>
    simp only [cutAt?] at h
    split at h
    · next hn =>
      simp only [Option.some.injEq, Prod.mk.injEq] at h
      obtain ⟨rfl, rfl⟩ := h
      simp [List.isEmpty_iff.1 hn]
    · simp at h
  | cons c rest ih =>
    simp only [cutAt?] at h
    split at h
    · next hp =>
      simp only [Option.some.injEq, Prod.mk.injEq] at h
      obtain ⟨rfl, rfl⟩ := h
      obtain ⟨t, ht⟩ := List.isPrefixOf_iff_prefix.1 hp
      simp [← ht]
    · obtain ⟨⟨b, a⟩, hcut, heq⟩ := Option.map_eq_some_iff.1 h
      simp only [Prod.mk.injEq] at heq
      obtain ⟨rfl, rfl⟩ := heq
      simp [ih hcut]

/-- The place of the first occurrence of `needle`. -/
def indexOf? (needle s : List Char) : Option Nat :=
  (cutAt? needle s).map (·.1.length)

/-- Does `needle` occur? -/
def occurs (needle s : List Char) : Bool :=
  (cutAt? needle s).isSome

/-- The text with the first occurrence of `needle` replaced. -/
def replaceFirst (needle new s : List Char) : List Char :=
  match cutAt? needle s with
  | some (before, after) => before ++ new ++ after
  | none => s

/-- The texts between the occurrences of a separator, or the single characters if it is empty. -/
def pieces (sep s : List Char) : List (List Char) :=
  if hs : sep = [] then s.map fun c => [c]
  else match h : cutAt? sep s with
    | none => [s]
    | some (before, after) =>
      have : after.length < s.length := by
        have hpos := List.length_pos_iff.2 hs
        rw [eq_of_cutAt? h]
        simp only [List.length_append]
        omega
      before :: pieces sep after
termination_by s.length

/-- Texts with a separator between them. -/
def join (sep : List Char) : List (List Char) → List Char
  | [] => []
  | [s] => s
  | s :: rest => s ++ sep ++ join sep rest

theorem join_cons_cons (sep s t : List Char) (rest : List (List Char)) :
    join sep (s :: t :: rest) = s ++ sep ++ join sep (t :: rest) :=
  rfl

theorem join_eq_intercalate (sep : List Char) (xs : List (List Char)) :
    join sep xs = sep.intercalate xs := by
  induction xs with
  | nil => rfl
  | cons s xs ih =>
    cases xs with
    | nil => exact List.intercalate_singleton.symm
    | cons t rest => rw [join_cons_cons, ih, List.intercalate_cons_cons]

end ColumnTree.Text
