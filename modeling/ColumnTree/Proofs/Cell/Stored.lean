/-
# Cells that are stored

The stored form of a cell does not tell its type: a date is stored as a text, and a text is what it
is read back as.  So of the cells whose numbers are finite just those without dates, at any depth of
their lists, come back as they were (`stored_back_iff`); the others come back with texts in place of
their dates (`undated`).
-/
import ColumnTree.Cell.Stored
import Mathlib

namespace ColumnTree

/-- A double is equal to itself if it is finite. -/
theorem beq_self_of_isFinite {x : Float} (h : x.isFinite = true) : (x == x) = true := by
  rw [Float.beq_self_iff]
  rintro rfl
  cases h

namespace Cell

mutual

/-- Are all the numbers in a cell finite? -/
def Finite : Cell → Prop
  | number x => x.isFinite = true
  | list items => FiniteItems items
  | _ => True

/-- Are all the numbers in the items of a list finite? -/
def FiniteItems : List Cell → Prop
  | [] => True
  | c :: rest => Finite c ∧ FiniteItems rest

end

mutual

/-- Are there no dates in a cell? -/
def Dateless : Cell → Prop
  | date _ => False
  | list items => DatelessItems items
  | _ => True

/-- Are there no dates in the items of a list? -/
def DatelessItems : List Cell → Prop
  | [] => True
  | c :: rest => Dateless c ∧ DatelessItems rest

end

mutual

/-- The cell with every date as a text. -/
def undated : Cell → Cell
  | date m => text (String.ofList m.iso)
  | list items => list (undatedItems items)
  | c => c

/-- The items of a list with every date as a text. -/
def undatedItems : List Cell → List Cell
  | [] => []
  | c :: rest => undated c :: undatedItems rest

end

/-! ## What is read back -/

mutual

theorem ofStored?_toJson : ∀ {c : Cell}, c.Finite → ofStored? (toJson c) = some c.undated
  | .null, _ | .bool _, _ | .text _, _ | .date _, _ => by simp [toJson, ofStored?, undated]
  | .number x, h => by
      rw [Finite] at h
      simp [toJson, h, ofStored?, undated]
  | .list items, h => by
      rw [Finite] at h
      rw [toJson, ofStored?, ofStoredAll?_toJsonAll h, undated]
      rfl

theorem ofStoredAll?_toJsonAll : ∀ {cs : List Cell}, FiniteItems cs →
    ofStoredAll? (toJsonAll cs) = some (undatedItems cs)
  | [], _ => by simp [toJsonAll, ofStoredAll?, undatedItems]
  | c :: rest, h => by
      rw [FiniteItems] at h
      rw [toJsonAll, ofStoredAll?, ofStored?_toJson h.1, ofStoredAll?_toJsonAll h.2, undatedItems]
      rfl

end

mutual

theorem undated_eq_self : ∀ {c : Cell}, c.Dateless → c.undated = c
  | .null, _ | .bool _, _ | .number _, _ | .text _, _ => by simp [undated]
  | .date _, h => by simp [Dateless] at h
  | .list items, h => by
      rw [Dateless] at h
      rw [undated, undatedItems_eq_self h]

theorem undatedItems_eq_self : ∀ {cs : List Cell}, DatelessItems cs → undatedItems cs = cs
  | [], _ => by rw [undatedItems]
  | c :: rest, h => by
      rw [DatelessItems] at h
      rw [undatedItems, undated_eq_self h.1, undatedItems_eq_self h.2]

end

/-! ## Equality -/

mutual

theorem strictEq_self : ∀ {c : Cell}, c.Finite → c.strictEq c = true
  | .null, _ | .bool _, _ | .text _, _ | .date _, _ => by simp [strictEq]
  | .number x, h => by
      rw [Finite] at h
      rw [strictEq, beq_self_of_isFinite h]
  | .list items, h => by
      rw [Finite] at h
      rw [strictEq, all_self h]

theorem all_self : ∀ {cs : List Cell}, FiniteItems cs → strictEq.all cs cs = true
  | [], _ => by rw [strictEq.all]
  | c :: rest, h => by
      rw [FiniteItems] at h
      rw [strictEq.all, strictEq_self h.1, all_self h.2, Bool.and_true]

end

mutual

/-- A text is not equal to a date. -/
theorem dateless_of_strictEq : ∀ {c : Cell}, c.undated.strictEq c = true → c.Dateless
  | .null, _ | .bool _, _ | .number _, _ | .text _, _ => by simp [Dateless]
  | .date _, h => by simp [undated, strictEq] at h
  | .list items, h => by
      rw [undated, strictEq] at h
      rw [Dateless]
      exact datelessItems_of_all h

theorem datelessItems_of_all : ∀ {cs : List Cell}, strictEq.all (undatedItems cs) cs = true →
    DatelessItems cs
  | [], _ => by rw [DatelessItems]; trivial
  | c :: rest, h => by
      rw [undatedItems, strictEq.all, Bool.and_eq_true_iff] at h
      rw [DatelessItems]
      exact ⟨dateless_of_strictEq h.1, datelessItems_of_all h.2⟩

end

/-- A cell whose numbers are finite is read back from its stored form with texts in place of its dates.
So it comes back as an equal cell exactly if there are no dates in it, and as a cell of the same type
exactly if it is no date itself. -/
theorem stored_back_iff (c : Cell) (h : c.Finite) :
    ∃ back, ofStored? c.toJson = some back ∧ back = c.undated ∧
      (back.strictEq c = true ↔ c.Dateless) ∧ (back = c ↔ c.Dateless) ∧
      (back.typeName = c.typeName ↔ ∀ m, c ≠ .date m) := by
  refine ⟨_, ofStored?_toJson h, rfl, ⟨dateless_of_strictEq, fun hc => ?_⟩,
    ⟨fun hc => ?_, undated_eq_self⟩, ?_⟩
  · rw [undated_eq_self hc]
    exact strictEq_self h
  · exact dateless_of_strictEq (hc.symm ▸ strictEq_self h)
  · cases c <;> simp [undated, typeName]

/-- A text that looks like a date comes back as itself, as everything else in the list. -/
theorem stored_back_nested :
    let c : Cell := .list [.null, .number 2.5, .text "2024-01-02T03:04:05",
      .list [.bool true, .number (-0.0), .list []]]
    c.Finite ∧ c.Dateless ∧ ofStored? c.toJson = some c := by
  intro c
  have hfinite : c.Finite := by
    have hhalf : (2.5 : Float).isFinite = true := rfl
    have hzero : (-0.0 : Float).isFinite = true := rfl
    simp [c, Finite, FiniteItems, hhalf, hzero]
  have hdateless : c.Dateless := by simp [c, Dateless, DatelessItems]
  obtain ⟨back, hback, -, -, heq, -⟩ := stored_back_iff c hfinite
  exact ⟨hfinite, hdateless, heq.2 hdateless ▸ hback⟩

/-- A date comes back as a text. -/
theorem not_forall_stored_back : ¬ ∀ c : Cell, c.Finite →
    ∃ back, ofStored? c.toJson = some back ∧ back.strictEq c = true ∧ back.typeName = c.typeName := by
  intro hall
  let c : Cell := .date (.midnight ⟨19724⟩)
  have hfinite : c.Finite := by simp [c, Finite]
  obtain ⟨back, hback, heq, -⟩ := hall c hfinite
  obtain rfl := Option.some.inj ((ofStored?_toJson hfinite).symm.trans hback)
  have hdateless := dateless_of_strictEq heq
  simp [c, Dateless] at hdateless

end Cell

end ColumnTree
