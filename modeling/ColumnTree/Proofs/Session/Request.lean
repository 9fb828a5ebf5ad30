/-
# What a text asks for

The parts of a request in terms of the fields of its object.  The `id` has no say in the others: a
request without its `id` is a notification that asks for the same.
-/
import ColumnTree.Session.Request

namespace ColumnTree

/-! ## Fields -/

namespace Fields

variable {fields : Fields} {name : String} {j : Json}

end Fields

namespace Session

/-! ## Requests -/

namespace Request

variable {fields : Fields} {name : String} {r : Request}

theorem ofJson?_obj_eq_some_iff :
    ofJson? (.obj fields) = some r ↔
      (∃ version, Fields.required fields "jsonrpc" Json.text? = some version) ∧
        value? fields "id" = some r.id? ∧
        Fields.required fields "method" Json.text? = some r.method ∧
        ∃ params?, value? fields "params" = some params? ∧ r.params = params?.getD (.obj []) := by
  obtain ⟨id?, method, params⟩ := r
  simp only [ofJson?, Json.fields?, Option.pure_def, Option.bind_eq_bind, Option.bind_some,
    Option.bind_eq_some_iff, Option.some.injEq, mk.injEq]
  constructor
  · rintro ⟨version, hversion, _, hid, _, hmethod, params?, hparams, rfl, rfl, rfl⟩
    exact ⟨⟨version, hversion⟩, hid, hmethod, params?, hparams, rfl⟩
  · rintro ⟨⟨version, hversion⟩, hid, hmethod, params?, hparams, rfl⟩
    exact ⟨version, hversion, _, hid, _, hmethod, params?, hparams, rfl, rfl, rfl⟩

/-- The fields that are not the `id`. -/
def withoutId (fields : Fields) : Fields :=
  fields.filter fun f => f.1 != "id"

theorem filter_withoutId (h : name ≠ "id") :
    (withoutId fields).filter (fun f => f.1 == name) = fields.filter fun f => f.1 == name := by
  rw [withoutId, List.filter_filter]
  refine List.filter_congr fun f _ => ?_
  by_cases hf : f.1 = name
  · simp [hf, h]
  · simp [hf]

theorem required_withoutId {α : Type} {read : Json → Option α} (h : name ≠ "id") :
    Fields.required (withoutId fields) name read = Fields.required fields name read := by
  rw [Fields.required, Fields.find?, filter_withoutId h]
  rfl

theorem value?_withoutId (h : name ≠ "id") :
    value? (withoutId fields) name = value? fields name := by
  rw [value?, Fields.optional, Fields.find?, filter_withoutId h]
  rfl

theorem value?_withoutId_id : value? (withoutId fields) "id" = some none := by
  have hnone : (withoutId fields).filter (fun f => f.1 == "id") = [] := by
    rw [withoutId, List.filter_filter, List.filter_eq_nil_iff]
    simp
  rw [value?, Fields.optional, Fields.find?, hnone]
  rfl

/-- A request without its `id` asks for the same. -/
theorem ofJson?_withoutId (h : ofJson? (.obj fields) = some r) :
    ofJson? (.obj (withoutId fields)) = some { r with id? := none } := by
  obtain ⟨hversion, -, hmethod, hparams⟩ := ofJson?_obj_eq_some_iff.1 h
  refine ofJson?_obj_eq_some_iff.2 ⟨?_, value?_withoutId_id, ?_, ?_⟩
  · rwa [required_withoutId (by decide)]
  · rwa [required_withoutId (by decide)]
  · rwa [value?_withoutId (by decide)]

/-- Requests that differ in their `id` only ask for the same. -/
theorem eq_of_withoutId_eq {fields' : Fields} {r' : Request} (h : ofJson? (.obj fields) = some r)
    (h' : ofJson? (.obj fields') = some r') (heq : withoutId fields = withoutId fields') :
    { r with id? := none } = { r' with id? := none } := by
  have hr := ofJson?_withoutId h
  rw [heq, ofJson?_withoutId h'] at hr
  exact (Option.some.inj hr).symm

end Request

end Session

end ColumnTree
