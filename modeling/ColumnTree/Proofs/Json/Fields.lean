/-
# Reading what was stored in fields

An object that is made of entries with different names holds each value under its own name, and nothing
under the names of those that are absent (`holds_ofFields`).  Reading a field that must be there, an
optional one or a list gives back what was stored if reading a single value does.

A value without repeated names and without numbers that are not finite is settled already.
-/
import ColumnTree.Json.Basic
import Mathlib.Data.List.Nodup

namespace ColumnTree

/-! ## Fields -/

namespace Fields

variable {α : Type} {fields : Fields} {name : String} {j : Json}

/-- Of fields with different names one has a name. -/
theorem filter_name_eq {fields : List (String × α)} {a : α} (hnodup : (fields.map (·.1)).Nodup)
    (h : (name, a) ∈ fields) : fields.filter (fun f => f.1 == name) = [(name, a)] := by
  induction fields with
  | nil => cases h
  | cons f rest ih =>
      obtain ⟨hfresh, hrest⟩ := List.nodup_cons.1 hnodup
      rcases List.mem_cons.1 h with rfl | h
      · rw [List.filter_cons_of_pos (by simp), List.filter_eq_nil_iff.2]
        intro g hg hname
        exact hfresh (List.mem_map.2 ⟨g, hg, eq_of_beq hname⟩)
      · rw [List.filter_cons_of_neg, ih hrest h]
        intro hname
        exact hfresh (List.mem_map.2 ⟨_, h, (eq_of_beq hname).symm⟩)

theorem withDefault_of_find? (h : fields.find? name = some (some j)) (default : α)
    (read : Json → Option α) : withDefault fields name default read = read j := by
  simp [withDefault, h]

theorem withDefault_of_absent (h : fields.find? name = some none) (default : α)
    (read : Json → Option α) : withDefault fields name default read = some default := by
  simp [withDefault, h]

/-- Under each name stands what an entry says, and nothing where it says that the field is absent. -/
def Holds (fields : Fields) (entries : List (String × Option Json)) : Prop :=
  ∀ name o, (name, o) ∈ entries → fields.find? name = some o

/-- An object that is made of entries with different names holds them. -/
theorem holds_ofFields {entries : List (String × Option Json)} (hnodup : (entries.map (·.1)).Nodup) :
    Holds (entries.filterMap fun f => f.2.map (f.1, ·)) entries := by
  intro name o h
  have hfilter : (entries.filterMap fun f => f.2.map (f.1, ·)).filter (fun f => f.1 == name) =
      (o.map (name, ·)).toList := by
    have hcomm : (entries.filterMap fun f => f.2.map (f.1, ·)).filter (fun f => f.1 == name) =
        (entries.filter fun f => f.1 == name).filterMap fun f => f.2.map (f.1, ·) := by
      rw [List.filter_filterMap, List.filterMap_filter]
      congr 1
      funext f
      cases f.2 <;> by_cases hf : f.1 = name <;> simp [hf, Option.filter]
    rw [hcomm, filter_name_eq hnodup h]
    cases o <;> rfl
  rw [find?, hfilter]
  cases o <;> rfl

namespace Holds

variable {entries : List (String × Option Json)} (h : fields.Holds entries)

include h

theorem required {read : Json → Option α} {a : α} (hmem : (name, some j) ∈ entries)
    (hread : read j = some a) : fields.required name read = some a := by
  simp [Fields.required, h name _ hmem, hread]

/-- An optional field is read back if its values are, none of them as `null`. -/
theorem optional {read : Json → Option α} (write : α → Json) {o : Option α}
    (hmem : (name, o.map write) ∈ entries) (hread : ∀ a, read (write a) = some a)
    (hnull : read .null = none) : fields.optional name read = some o := by
  have hfind := h name _ hmem
  cases o with
  | none => simp [Fields.optional, hfind]
  | some a =>
      have hne : write a ≠ .null := by
        intro heq
        have := hread a
        rw [heq, hnull] at this
        cases this
      simp [Fields.optional, hfind, hread]

end Holds

end Fields

namespace Json

/-! ## Lists -/

/-- A list is read back if its items are. -/
theorem mapM_map_eq_some {α β : Type} {read : β → Option α} {write : α → β} {l : List α}
    (h : ∀ a ∈ l, read (write a) = some a) : (l.map write).mapM read = some l := by
  induction l with
  | nil => rfl
  | cons a l ih =>
      rw [List.forall_mem_cons] at h
      rw [List.map_cons, List.mapM_cons, h.1, ih h.2]
      rfl

/-! ## Settled values -/

@[simp] theorem settled?_str (s : String) : (str s).settled? = some (str s) := by
  rw [settled?] <;> simp

theorem settled?_arr_eq_self {items : List Json} (h : ∀ j ∈ items, j.settled? = some j) :
    (arr items).settled? = some (arr items) := by
  have hitems : settledItems items = some items := by
    induction items with
    | nil => rw [settledItems]
    | cons j rest ih =>
        rw [List.forall_mem_cons] at h
        rw [settledItems, h.1, ih h.2]
        rfl
  rw [settled?, hitems]
  rfl

theorem settled?_obj_eq_self {fields : List (String × Json)} (hnodup : (fields.map (·.1)).Nodup)
    (h : ∀ f ∈ fields, f.2.settled? = some f.2) : (obj fields).settled? = some (obj fields) := by
  have hfields : settledFields fields = some fields := by
    induction fields with
    | nil => rw [settledFields]
    | cons f rest ih =>
        obtain ⟨hfresh, hrest⟩ := List.nodup_cons.1 hnodup
        rw [List.forall_mem_cons] at h
        have hkeep : keepLast f rest = f :: rest := by
          unfold keepLast
          rw [if_neg]
          intro hany
          obtain ⟨g, hg, hname⟩ := List.any_eq_true.1 hany
          exact hfresh (List.mem_map.2 ⟨g, hg, eq_of_beq hname⟩)
        rw [settledFields, h.1, ih hrest h.2]
        exact congrArg some hkeep
  rw [settled?, hfields]
  rfl

/-! ## Numbers -/

@[simp] theorem word?_word (n : UInt64) : (word n).word? = some n := by
  have hn : n.toNat < twoTo 64 := n.toNat_lt
  rw [word, word?, if_pos ⟨Int.natCast_nonneg _, Int.ofNat_lt.2 hn⟩, Int.toNat_natCast,
    UInt64.ofNat_toNat]

end Json

end ColumnTree
