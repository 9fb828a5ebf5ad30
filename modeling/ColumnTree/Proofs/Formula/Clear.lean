/-
# Where cuts are found

`Clear P before ms after` says that no place in `ms` has the property `P`, seen as a part of a text:
`before`, the nearest mark first, stands in front of it and `after` behind it.  The first cut with a
property is one with the property and nothing but clear marks in front of it, and the last cut is
one with nothing but clear marks behind it; so that searching for cuts is a matter of what parts are
clear, and parts can be looked at one by one (`clear_append`).
-/
import ColumnTree.Formula.Reader
import ColumnTree.Proofs.Formula.Reading

namespace ColumnTree.Formula

/-- No place in a part of a text has a property. -/
def Clear (P : Cut → Bool) (before ms after : List Mark) : Prop :=
  ∀ x m y, ms = x ++ m :: y → P ⟨x.reverse ++ before, m, y ++ after⟩ = false

variable {P : Cut → Bool} {before ms ms' after : List Mark} {m : Mark}

theorem clear_nil : Clear P before [] after := by
  intro x m y h
  simp at h

theorem clear_cons : Clear P before (m :: ms) after ↔
    P ⟨before, m, ms ++ after⟩ = false ∧ Clear P (m :: before) ms after := by
  constructor
  · intro h
    refine ⟨h [] m ms rfl, fun x n y heq => ?_⟩
    have := h (m :: x) n y (by rw [heq]; rfl)
    simpa using this
  · rintro ⟨hm, hms⟩ x n y heq
    cases x with
    | nil =>
        obtain ⟨rfl, rfl⟩ := List.cons.inj heq
        exact hm
    | cons k x =>
        obtain ⟨rfl, hrest⟩ := List.cons.inj heq
        have := hms x n y hrest
        simpa using this

theorem clear_append : Clear P before (ms ++ ms') after ↔
    Clear P before ms (ms' ++ after) ∧ Clear P (ms.reverse ++ before) ms' after := by
  induction ms generalizing before with
  | nil => simp [clear_nil]
  | cons m ms ih =>
      rw [List.cons_append, clear_cons, clear_cons, ih, List.append_assoc, List.reverse_cons,
        List.append_assoc, List.singleton_append, and_assoc]

theorem clear_singleton : Clear P before [m] after ↔ P ⟨before, m, after⟩ = false := by
  rw [clear_cons]
  simp [clear_nil]

/-! ## The first and the last cut -/

theorem mem_cutsFrom {c : Cut} : c ∈ cutsFrom before ms ↔
    ∃ x m y, ms = x ++ m :: y ∧ c = ⟨x.reverse ++ before, m, y⟩ := by
  induction ms generalizing before with
  | nil => simp [cutsFrom]
  | cons n ms ih =>
      rw [cutsFrom, List.mem_cons, ih]
      constructor
      · rintro (rfl | ⟨x, m, y, rfl, rfl⟩)
        · exact ⟨[], n, ms, rfl, rfl⟩
        · exact ⟨n :: x, m, y, rfl, by simp⟩
      · rintro ⟨x, m, y, heq, rfl⟩
        cases x with
        | nil =>
            obtain ⟨rfl, rfl⟩ := List.cons.inj heq
            exact .inl rfl
        | cons k x =>
            obtain ⟨rfl, rfl⟩ := List.cons.inj heq
            exact .inr ⟨x, m, y, rfl, by simp⟩

theorem clear_iff_cutsFrom :
    Clear P before ms [] ↔ ∀ c ∈ cutsFrom before ms, P c = false := by
  constructor
  · intro h c hc
    obtain ⟨x, m, y, heq, rfl⟩ := mem_cutsFrom.1 hc
    have := h x m y heq
    simpa using this
  · intro h x m y heq
    rw [List.append_nil]
    exact h _ (mem_cutsFrom.2 ⟨x, m, y, heq, rfl⟩)

theorem cutsFrom_append_cons (x : List Mark) (m : Mark) (y : List Mark) :
    cutsFrom before (x ++ m :: y) =
      (cutsFrom before x).map (fun c => ⟨c.before, c.mark, c.after ++ m :: y⟩) ++
        ⟨x.reverse ++ before, m, y⟩ :: cutsFrom (m :: (x.reverse ++ before)) y := by
  induction x generalizing before with
  | nil => rfl
  | cons n x ih =>
      rw [List.cons_append, cutsFrom, cutsFrom, ih]
      simp

theorem lastCut_eq_none_iff : lastCut P ms = none ↔ Clear P [] ms [] := by
  rw [clear_iff_cutsFrom, lastCut, List.find?_eq_none]
  simp [cuts]

theorem firstCut_eq_none_iff : firstCut P ms = none ↔ Clear P [] ms [] := by
  rw [clear_iff_cutsFrom, firstCut, List.find?_eq_none]
  simp [cuts]

theorem lastCut_eq_some_iff {c : Cut} : lastCut P ms = some c ↔
    ms = c.before.reverse ++ c.mark :: c.after ∧ P c = true ∧
      Clear P (c.mark :: c.before) c.after [] := by
  have hcuts : ∀ (x : List Mark) (m : Mark) (y : List Mark),
      (cuts (x ++ m :: y)).reverse = (cutsFrom (m :: x.reverse) y).reverse ++
        ⟨x.reverse, m, y⟩ ::
          ((cutsFrom [] x).map fun c => (⟨c.before, c.mark, c.after ++ m :: y⟩ : Cut)).reverse := by
    intro x m y
    rw [cuts, cutsFrom_append_cons]
    simp
  constructor
  · intro h
    obtain ⟨x, m, y, rfl, rfl⟩ :=
      mem_cutsFrom.1 (List.mem_reverse.1 (List.mem_of_find?_eq_some h))
    have hP := List.find?_some h
    simp only [List.append_nil] at h hP ⊢
    refine ⟨by simp, hP, clear_iff_cutsFrom.2 fun d hd => ?_⟩
    rw [lastCut, hcuts, List.find?_append] at h
    cases hfind : (cutsFrom (m :: x.reverse) y).reverse.find? P with
    | none => simpa using List.find?_eq_none.1 hfind d (List.mem_reverse.2 hd)
    | some d' =>
        -- Another one behind it would have been found.
        rw [hfind, Option.some_or] at h
        obtain rfl := Option.some.inj h
        obtain ⟨x', k, y', heq, hd'⟩ :=
          mem_cutsFrom.1 (List.mem_reverse.1 (List.mem_of_find?_eq_some hfind))
        have := congrArg (fun c : Cut => c.after.length) hd'
        rw [heq] at this
        simp only [List.length_append, List.length_cons] at this
        omega
  · rintro ⟨rfl, hP, hclear⟩
    have hnone : (cutsFrom (c.mark :: c.before.reverse.reverse) c.after).reverse.find? P = none := by
      rw [List.find?_eq_none, List.reverse_reverse]
      intro d hd
      simp [clear_iff_cutsFrom.1 hclear d (List.mem_reverse.1 hd)]
    rw [lastCut, hcuts, List.find?_append, hnone, Option.none_or, List.reverse_reverse,
      List.find?_cons_of_pos hP]

/-- Behind clear marks the first cut is found. -/
theorem find?_cutsFrom {x y : List Mark} (hclear : Clear P before x (m :: y))
    (hP : P ⟨x.reverse ++ before, m, y⟩ = true) :
    (cutsFrom before (x ++ m :: y)).find? P = some ⟨x.reverse ++ before, m, y⟩ := by
  have hnone : ((cutsFrom before x).map
      (fun d => (⟨d.before, d.mark, d.after ++ m :: y⟩ : Cut))).find? P = none := by
    rw [List.find?_eq_none]
    intro d hd
    obtain ⟨e, he, rfl⟩ := List.mem_map.1 hd
    obtain ⟨x', n, y', heq, rfl⟩ := mem_cutsFrom.1 he
    simp [hclear x' n y' heq]
  rw [cutsFrom_append_cons, List.find?_append, hnone, Option.none_or, List.find?_cons_of_pos hP]

theorem firstCut_eq_some_iff {c : Cut} : firstCut P ms = some c ↔
    ms = c.before.reverse ++ c.mark :: c.after ∧ P c = true ∧
      Clear P [] c.before.reverse (c.mark :: c.after) := by
  constructor
  · intro h
    obtain ⟨x, m, y, rfl, rfl⟩ := mem_cutsFrom.1 (List.mem_of_find?_eq_some h)
    have hP := List.find?_some h
    simp only [List.append_nil] at h hP ⊢
    refine ⟨by rw [List.reverse_reverse], hP, ?_⟩
    intro x' n y' heq
    rw [List.reverse_reverse] at heq
    subst heq
    rw [firstCut, cuts, List.append_assoc, List.cons_append, cutsFrom_append_cons,
      List.find?_append, List.append_nil] at h
    rw [List.append_nil, ← Bool.not_eq_true]
    intro hno
    -- A cut further in front would have been found.
    have hlen : ∀ d ∈ (cutsFrom [] x').map
        (fun c => (⟨c.before, c.mark, c.after ++ n :: (y' ++ m :: y)⟩ : Cut)),
        d.before.length < x'.length := by
      intro d hd
      obtain ⟨e, he, rfl⟩ := List.mem_map.1 hd
      have := length_of_mem_cutsFrom he
      simp only [List.length_nil] at this ⊢
      omega
    cases hfind : ((cutsFrom [] x').map
        (fun c => (⟨c.before, c.mark, c.after ++ n :: (y' ++ m :: y)⟩ : Cut))).find? P with
    | some d =>
        have hd := hlen d (List.mem_of_find?_eq_some hfind)
        rw [hfind, Option.some_or] at h
        obtain rfl := Option.some.inj h
        simp at hd
        omega
    | none =>
        rw [hfind, Option.none_or, List.find?_cons_of_pos hno] at h
        have := congrArg (fun c : Cut => c.before.length) (Option.some.inj h)
        simp only [List.length_reverse, List.length_append, List.length_cons] at this
        omega
  · rintro ⟨rfl, hP, hclear⟩
    have := find?_cutsFrom hclear (by simpa using hP)
    simpa [firstCut, cuts] using this

/-! ## Offsets do not matter -/

/-- The cut without offsets. -/
def Cut.unplaced (c : Cut) : Cut :=
  ⟨c.before.map Mark.unplaced, c.mark.unplaced, c.after.map Mark.unplaced⟩

theorem cutsFrom_map_unplaced (before ms : List Mark) :
    cutsFrom (before.map Mark.unplaced) (ms.map Mark.unplaced) =
      (cutsFrom before ms).map Cut.unplaced := by
  induction ms generalizing before with
  | nil => rfl
  | cons m ms ih =>
      rw [List.map_cons, cutsFrom, cutsFrom, List.map_cons, ← ih]
      rfl

section Unplaced

variable (hP : ∀ c : Cut, P c.unplaced = P c)

include hP

theorem lastCut_map_unplaced (ms : List Mark) :
    lastCut P (ms.map Mark.unplaced) = (lastCut P ms).map Cut.unplaced := by
  have hcuts := cutsFrom_map_unplaced [] ms
  rw [List.map_nil] at hcuts
  rw [lastCut, cuts, hcuts, ← List.map_reverse, List.find?_map]
  simp only [Function.comp_def, hP]
  rfl

theorem firstCut_map_unplaced (ms : List Mark) :
    firstCut P (ms.map Mark.unplaced) = (firstCut P ms).map Cut.unplaced := by
  have hcuts := cutsFrom_map_unplaced [] ms
  rw [List.map_nil] at hcuts
  rw [firstCut, cuts, hcuts, List.find?_map]
  simp only [Function.comp_def, hP]
  rfl

end Unplaced

namespace Cut

@[simp] theorem left_unplaced (c : Cut) : c.unplaced.left = c.left := by
  simp only [left, unplaced, ← List.map_reverse, textOf_unplaced]

@[simp] theorem right_unplaced (c : Cut) : c.unplaced.right = c.right := by
  simp only [right, unplaced, textOf_unplaced]

theorem isTop_unplaced (chars : List Char) (c : Cut) : c.unplaced.isTop chars = c.isTop chars :=
  rfl

theorem startsWithStar_unplaced (ms : List Mark) :
    startsWithStar (ms.map Mark.unplaced) = startsWithStar ms := by
  cases ms <;> rfl

theorem previous?_unplaced (c : Cut) : c.unplaced.previous? = c.previous? := by
  simp only [previous?, unplaced, List.find?_map, Option.map_map]
  rfl

theorem isExponentSign_unplaced (c : Cut) : c.unplaced.isExponentSign = c.isExponentSign := by
  obtain ⟨before, m, after⟩ := c
  match before with
  | [] => rfl
  | [_] => rfl
  | _ :: _ :: _ => rfl

theorem isBinarySign_unplaced (c : Cut) : c.unplaced.isBinarySign = c.isBinarySign := by
  unfold isBinarySign
  rw [isTop_unplaced, isExponentSign_unplaced, previous?_unplaced]

theorem isProductSign_unplaced (c : Cut) : c.unplaced.isProductSign = c.isProductSign := by
  unfold isProductSign
  rw [isTop_unplaced, isTop_unplaced]
  simp only [unplaced, startsWithStar_unplaced]

theorem isPowerSign_unplaced (c : Cut) : c.unplaced.isPowerSign = c.isPowerSign := by
  unfold isPowerSign
  rw [isTop_unplaced]
  simp only [unplaced, startsWithStar_unplaced]

theorem comparison?_unplaced (c : Cut) : c.unplaced.comparison? =
    c.comparison?.map fun r => (r.1, r.2.map Mark.unplaced) := by
  obtain ⟨before, ⟨offset, char, top⟩, after⟩ := c
  cases after with
  | nil =>
      unfold comparison? unplaced
      simp only [List.map_nil, Mark.char_unplaced]
      split <;> simp_all
  | cons n after =>
      unfold comparison? unplaced
      simp only [List.map_cons, Mark.char_unplaced]
      split
      case h_5 heq => cases heq
      case h_6 heq => cases heq
      case h_7 => split <;> simp_all
      all_goals
        next heq =>
          obtain ⟨rfl, rfl⟩ := List.cons.inj heq
          by_cases hn : n.char = '=' <;> simp [hn]

theorem afterWord_unplaced (word : List Char) (ms : List Mark) :
    afterWord word (ms.map Mark.unplaced) = (afterWord word ms).map (·.map Mark.unplaced) := by
  induction word generalizing ms with
  | nil => rfl
  | cons w word ih =>
      cases ms with
      | nil => rfl
      | cons m ms =>
          rw [List.map_cons, afterWord, afterWord, Mark.char_unplaced]
          split
          · exact ih ms
          · rfl

theorem afterKeyword?_unplaced (word : List Char) (c : Cut) : c.unplaced.afterKeyword? word =
    (c.afterKeyword? word).map (·.map Mark.unplaced) := by
  have hhead : ∀ ms : List Mark, (ms.map Mark.unplaced).head?.all (fun m => !isIdentChar m.char) =
      ms.head?.all fun m => !isIdentChar m.char := by
    intro ms
    cases ms <;> rfl
  unfold afterKeyword?
  have hword := afterWord_unplaced word (c.mark :: c.after)
  rw [List.map_cons] at hword
  simp only [unplaced, hhead, Mark.top_unplaced, hword]
  split
  · cases afterWord word (c.mark :: c.after) with
    | none => rfl
    | some ms =>
        rw [Option.map_some, Option.filter_some, Option.filter_some, hhead]
        split <;> rfl
  · rfl

end Cut

end ColumnTree.Formula
