/-
# What is stored is read back

Records, patches and commands whose weights are finite are read back from their stored forms, commands by
induction over the batches that they are in.  Where it matters whether there is an aggregation, the
stored form tells: a record without one holds an empty object, a patch that takes one away holds `null`,
and one that leaves it alone has no such field (`Patch.info_of_find?`).

Each reader is first opened on any values in the fields (`ofJson?_obj`), before the values that were
stored are put there.
-/
import ColumnTree.Outline.Stored
import ColumnTree.Proofs.Json.Fields
import ColumnTree.Proofs.Outline.Upkeep

namespace ColumnTree

open Formula

namespace Formula

@[simp] theorem Operation.ofJson?_name (o : Operation) : ofJson? (.str o.name) = some o := by
  cases o <;> rfl

namespace Contribution

theorem ofJson?_obj (id name weight used : Json) :
    ofJson? (.obj [("id", id), ("name", name), ("weight", weight), ("used", used)]) =
      return ⟨← id.word?, ← name.text?, ← weight.number?, ← used.bool?⟩ :=
  rfl

variable {c : Contribution}

theorem ofJson?_toJson (h : c.weight.isFinite = true) : ofJson? c.toJson = some c := by
  rw [toJson, ofJson?_obj]
  simp [Json.text?, Json.number?, Json.bool?, h]

theorem listOfJson?_toJson {cs : List Contribution} (h : ∀ c ∈ cs, c.weight.isFinite = true) :
    listOfJson? (.arr (cs.map (·.toJson))) = some cs :=
  Json.mapM_map_eq_some fun c hc => ofJson?_toJson (h c hc)

theorem settled?_toJson (h : c.weight.isFinite = true) : c.toJson.settled? = some c.toJson := by
  have hnames : ["id", "name", "weight", "used"].Nodup := by decide
  refine Json.settled?_obj_eq_self hnames ?_
  simp [Json.word, Json.settled?, h]

end Contribution

end Formula

namespace Outline

@[simp] theorem Kind.ofJson?_name (k : Kind) : ofJson? (.str k.name) = some k := by
  cases k <;> rfl

@[simp] theorem DataType.ofJson?_name (t : DataType) : ofJson? (.str t.name) = some t := by
  cases t <;> rfl

@[simp] theorem idsOfJson?_words (ids : List RecordId) :
    idsOfJson? (.arr (ids.map Json.word)) = some ids :=
  Json.mapM_map_eq_some fun id _ => Json.word?_word id

/-! ## Aggregations -/

namespace Aggregation

/-- The weights of the columns have a property. -/
def Weights (P : Float → Prop) (a : Aggregation) : Prop :=
  ∀ c ∈ a.columns, P c.weight

/-- The weights of the columns are finite. -/
abbrev Finite : Aggregation → Prop :=
  Weights fun w => w.isFinite = true

theorem ofJson?_obj (operation formula exec columns : Json) :
    ofJson? (.obj [("operation", operation), ("formula", formula), ("exec", exec),
      ("usedAttributes", columns)]) =
      return ⟨← Operation.ofJson? operation, ← formula.text?, ← exec.text?,
        ← Contribution.listOfJson? columns⟩ :=
  rfl

variable {a : Aggregation}

theorem ofJson?_toJson (h : a.Finite) : ofJson? a.toJson = some a := by
  rw [toJson, ofJson?_obj]
  simp [Json.text?, Contribution.listOfJson?_toJson h]

theorem settled?_toJson (h : a.Finite) : a.toJson.settled? = some a.toJson := by
  have hnames : ["operation", "formula", "exec", "usedAttributes"].Nodup := by decide
  have hcolumns : ∀ j ∈ a.columns.map (·.toJson), j.settled? = some j := by
    intro j hj
    obtain ⟨c, hc, rfl⟩ := List.mem_map.1 hj
    exact Contribution.settled?_toJson (h c hc)
  refine Json.settled?_obj_eq_self hnames ?_
  simp [Json.settled?_arr_eq_self hcolumns]

/-- An aggregation is told apart from its absence. -/
theorem optionalOfJson?_toJson (h : a.Finite) : optionalOfJson? a.toJson = some (some a) := by
  rw [optionalOfJson?, settled?_toJson h]
  change (do return some (← ofJson? a.toJson)) = some (some a)
  rw [ofJson?_toJson h]
  rfl

end Aggregation

namespace Record

theorem ofJson?_obj (id name kind dataType description shown children aggregation : Json) :
    ofJson? (.obj [("id", id), ("name", name), ("type", kind), ("dtype", dataType),
      ("desc", description), ("isShown", shown), ("related", children), ("info", aggregation)]) =
      return ⟨← id.word?, ← name.text?, ← Kind.ofJson? kind, ← DataType.ofJson? dataType,
        ← description.text?, ← shown.bool?, ← idsOfJson? children,
        ← Aggregation.optionalOfJson? aggregation⟩ :=
  rfl

theorem ofJson?_toJson {r : Record} (h : r.Bears Aggregation.Finite) :
    ofJson? r.toJson = some r := by
  have haggregation : Aggregation.optionalOfJson? (r.aggregation?.elim (.obj []) (·.toJson)) =
      some r.aggregation? := by
    cases ha : r.aggregation? with
    | none => rfl
    | some a => exact Aggregation.optionalOfJson?_toJson (h a ha)
  rw [toJson, ofJson?_obj, haggregation]
  simp [Json.text?, Json.bool?]

end Record

/-! ## Patches -/

namespace Patch

/-- The entries of a stored patch; those of fields that it does not change are absent. -/
theorem exists_holds (p : Patch) : ∃ fields : Fields, p.toJson = .obj fields ∧ fields.Holds [
    ("name", p.name.map .str), ("type", p.kind.map fun k => .str k.name),
    ("dtype", p.dataType.map fun t => .str t.name), ("desc", p.description.map .str),
    ("isShown", p.shown.map .bool), ("info", p.aggregation.map fun a => a.elim .null (·.toJson))] := by
  have hnames : ["name", "type", "dtype", "desc", "isShown", "info"].Nodup := by decide
  exact ⟨_, rfl, Fields.holds_ofFields (by exact hnames)⟩

/-- An aggregation that a patch takes away is told apart from one that it leaves alone, and from one
that it sets. -/
theorem info_of_find? {fields : Fields} {o : Option (Option Aggregation)}
    (hfind : fields.find? "info" = some (o.map fun a => a.elim .null (·.toJson)))
    (h : ∀ a, o = some (some a) → a.Finite) :
    fields.withDefault "info" none (fun j => do
      return some (← Aggregation.optionalOfJson? j)) = some o := by
  cases o with
  | none => exact Fields.withDefault_of_absent hfind _ _
  | some o =>
      rw [Fields.withDefault_of_find? hfind]
      cases o with
      | none => rfl
      | some a =>
          change (do return some (← Aggregation.optionalOfJson? a.toJson)) = some (some (some a))
          rw [Aggregation.optionalOfJson?_toJson (h a rfl)]
          rfl

theorem ofJson?_toJson {p : Patch} (h : p.Bears Aggregation.Finite) : ofJson? p.toJson = some p := by
  obtain ⟨fields, hobj, hholds⟩ := p.exists_holds
  have hname : fields.optional "name" Json.text? = some p.name :=
    hholds.optional .str (by simp) (fun _ => rfl) rfl
  have hkind : fields.optional "type" Kind.ofJson? = some p.kind :=
    hholds.optional _ (by simp) Kind.ofJson?_name rfl
  have hdataType : fields.optional "dtype" DataType.ofJson? = some p.dataType :=
    hholds.optional _ (by simp) DataType.ofJson?_name rfl
  have hdescription : fields.optional "desc" Json.text? = some p.description :=
    hholds.optional .str (by simp) (fun _ => rfl) rfl
  have hshown : fields.optional "isShown" Json.bool? = some p.shown :=
    hholds.optional .bool (by simp) (fun _ => rfl) rfl
  have hinfo := info_of_find? (hholds "info" _ (by simp)) h
  simp only [hobj, ofJson?, Json.fields?, hname, hkind, hdataType, hdescription, hshown,
    Option.bind_eq_bind, Option.bind_some] at hinfo ⊢
  rw [hinfo]
  rfl

end Patch

/-! ## Commands -/

namespace Command

theorem ofJson?_of_single {fields : Fields} {kind : String} {c : Command}
    (hkind : fields.find? "change" = some (some (.str kind))) (hne : kind ≠ "batch")
    (h : single? kind fields = some c) : ofJson? (.obj fields) = some c := by
  simp [ofJson?, Fields.required, hkind, Json.text?, hne, h]

theorem ofJson?_add {parent : RecordId} {r : Record} {place : Option UInt64}
    (h : r.Bears Aggregation.Finite) :
    ofJson? (add parent r place).toJson = some (add parent r place) := by
  have hnames : ["change", "parent", "node", "index"].Nodup := by decide
  obtain ⟨fields, hobj, hholds⟩ : ∃ fields : Fields, (add parent r place).toJson = .obj fields ∧
      fields.Holds [("change", some (.str "addNode")), ("parent", some (.word parent)),
        ("node", some r.toJson), ("index", place.map .word)] :=
    ⟨_, rfl, Fields.holds_ofFields (by exact hnames)⟩
  have hparent : fields.required "parent" Json.word? = some parent :=
    hholds.required (by simp) (Json.word?_word parent)
  have hrecord : fields.required "node" Record.ofJson? = some r :=
    hholds.required (by simp) (Record.ofJson?_toJson h)
  have hplace : fields.optional "index" Json.word? = some place :=
    hholds.optional .word (by simp) Json.word?_word rfl
  rw [hobj]
  refine ofJson?_of_single (hholds _ (some (.str "addNode")) (by simp)) (by decide) ?_
  simp [single?, hparent, hrecord, hplace]

theorem ofJson?_remove (id : RecordId) : ofJson? (remove id).toJson = some (remove id) := by
  have hread : ∀ change j : Json, single? "removeNode" [("change", change), ("id", j)] =
      return remove (← j.word?) := fun _ _ => rfl
  exact ofJson?_of_single rfl (by decide) ((hread _ _).trans (by simp))

theorem ofJson?_update {id : RecordId} {p : Patch} (h : p.Bears Aggregation.Finite) :
    ofJson? (update id p).toJson = some (update id p) := by
  have hread : ∀ change i j : Json,
      single? "updateNode" [("change", change), ("id", i), ("patch", j)] =
        return update (← i.word?) (← Patch.ofJson? j) := fun _ _ _ => rfl
  exact ofJson?_of_single rfl (by decide) ((hread _ _ _).trans (by simp [Patch.ofJson?_toJson h]))

theorem ofJson?_move (source target : RecordId) (place : Option UInt64) :
    ofJson? (move source target place).toJson = some (move source target place) := by
  have hnames : ["change", "source", "target", "index"].Nodup := by decide
  obtain ⟨fields, hobj, hholds⟩ : ∃ fields : Fields,
      (move source target place).toJson = .obj fields ∧
      fields.Holds [("change", some (.str "relationshipNode")), ("source", some (.word source)),
        ("target", some (.word target)), ("index", place.map .word)] :=
    ⟨_, rfl, Fields.holds_ofFields (by exact hnames)⟩
  have hsource : fields.required "source" Json.word? = some source :=
    hholds.required (by simp) (Json.word?_word source)
  have htarget : fields.required "target" Json.word? = some target :=
    hholds.required (by simp) (Json.word?_word target)
  have hplace : fields.optional "index" Json.word? = some place :=
    hholds.optional .word (by simp) Json.word?_word rfl
  rw [hobj]
  refine ofJson?_of_single (hholds _ (some (.str "relationshipNode")) (by simp)) (by decide) ?_
  simp [single?, hsource, htarget, hplace]

mutual

theorem ofJson?_toJson : ∀ {c : Command}, c.Bears Aggregation.Finite → ofJson? c.toJson = some c
  | .add _ _ _, h => ofJson?_add h
  | .remove id, _ => ofJson?_remove id
  | .update _ _, h => ofJson?_update h
  | .move source target place, _ => ofJson?_move source target place
  | .batch cs, h => by
      have hitems : items? (toJsonAll cs) = some cs := items?_toJsonAll h
      change (do return batch (← items? (toJsonAll cs))) = some (batch cs)
      rw [hitems]
      rfl

theorem items?_toJsonAll : ∀ {cs : List Command}, AllBear Aggregation.Finite cs →
    items? (toJsonAll cs) = some cs
  | [], _ => rfl
  | c :: rest, h => by
      change (do return (← ofJson? c.toJson) :: (← items? (toJsonAll rest))) = some (c :: rest)
      rw [ofJson?_toJson h.1, items?_toJsonAll h.2]
      rfl

end

end Command

end Outline

end ColumnTree
