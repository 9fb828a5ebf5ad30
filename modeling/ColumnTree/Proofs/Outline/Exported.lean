/-
# Exports are loaded again

The stored form of a tree that an editor reaches is loaded as the same tree, with the same index of
parents, if all weights in it are finite; records, patches and commands are read back as well
(`stored_read_back`).  The same goes for their texts, as far as the reader of numbers reads back the
weights that the printer has written; that depends on the weights, since the reader does not always take
the nearest double.

Edits keep weights as they are (`Aggregation.kept_weights`), so that weights that come in finite stay
finite.
-/
import ColumnTree.Proofs.Json.Written
import ColumnTree.Proofs.Outline.Acceptance
import ColumnTree.Proofs.Outline.Stored
import ColumnTree.Proofs.Outline.TakenBack

namespace ColumnTree

open Formula

/-! ## Texts -/

namespace Formula.Contribution

theorem faithful_toJson {c : Contribution} (h : Json.ReadsBack c.weight) : c.toJson.Faithful := by
  simp [toJson, Json.faithful_obj_iff, h]

theorem levels_toJson (c : Contribution) : c.toJson.levels ≤ 1 :=
  Json.levels_obj_le_iff.2 (by simp)

end Formula.Contribution

namespace Outline

namespace Aggregation

/-- The weights of the columns are read back from their texts. -/
abbrev ReadsBack : Aggregation → Prop :=
  Weights Json.ReadsBack

theorem faithful_toJson {a : Aggregation} (h : a.ReadsBack) : a.toJson.Faithful := by
  have hcolumns : (Json.arr (a.columns.map (·.toJson))).Faithful :=
    Json.faithful_arr_iff.2 (List.forall_mem_map.2 fun c hc => Contribution.faithful_toJson (h c hc))
  simp [toJson, Json.faithful_obj_iff, hcolumns]

theorem levels_toJson (a : Aggregation) : a.toJson.levels ≤ 3 := by
  have hcolumns : (Json.arr (a.columns.map (·.toJson))).levels ≤ 2 :=
    Json.levels_arr_le_iff.2 (List.forall_mem_map.2 fun c _ => c.levels_toJson)
  simp [toJson, Json.levels_obj_le_iff, hcolumns]

end Aggregation

namespace Record

theorem faithful_toJson {r : Record} (h : r.Bears Aggregation.ReadsBack) : r.toJson.Faithful := by
  have haggregation : (r.aggregation?.elim (.obj []) (·.toJson)).Faithful := by
    cases ha : r.aggregation? with
    | none => simp [Json.faithful_obj_iff]
    | some a => exact Aggregation.faithful_toJson (h a ha)
  have hchildren : (Json.arr (r.children.map Json.word)).Faithful :=
    Json.faithful_arr_iff.2 (by simp)
  simp [toJson, Json.faithful_obj_iff, haggregation, hchildren]

theorem levels_toJson (r : Record) : r.toJson.levels ≤ 4 := by
  have haggregation : (r.aggregation?.elim (.obj []) (·.toJson)).levels ≤ 3 := by
    cases r.aggregation? with
    | none => simp [Json.levels_obj_le_iff]
    | some a => exact a.levels_toJson
  have hchildren : (Json.arr (r.children.map Json.word)).levels ≤ 3 :=
    Json.levels_arr_le_iff.2 (by simp)
  simp [toJson, Json.levels_obj_le_iff, haggregation, hchildren]

end Record

namespace Patch

theorem faithful_toJson {p : Patch} (h : p.Bears Aggregation.ReadsBack) : p.toJson.Faithful := by
  have hinfo : ∀ o, p.aggregation = some o → (o.elim Json.null (·.toJson)).Faithful := by
    intro o ho
    cases o with
    | none => exact Json.faithful_null
    | some a => exact Aggregation.faithful_toJson (h a ho)
  simpa [toJson, Json.faithful_ofFields_iff, -Bool.exists_bool, -Bool.forall_bool] using hinfo

theorem levels_toJson (p : Patch) : p.toJson.levels ≤ 4 := by
  have hinfo : ∀ o : Option Aggregation, (o.elim Json.null (·.toJson)).levels ≤ 3 := by
    intro o
    cases o with
    | none => simp
    | some a => exact a.levels_toJson
  simp [toJson, Json.levels_ofFields_le_iff, -Bool.exists_bool, -Bool.forall_bool, hinfo]

end Patch

namespace Command

mutual

theorem faithful_toJson : ∀ {c : Command}, c.Bears Aggregation.ReadsBack → c.toJson.Faithful
  | .add parent r place, h => by
      rw [Bears] at h
      simp [toJson, Json.faithful_ofFields_iff, r.faithful_toJson h]
  | .remove id, _ => by
      simp [toJson, Json.faithful_obj_iff]
  | .update id p, h => by
      rw [Bears] at h
      simp [toJson, Json.faithful_obj_iff, p.faithful_toJson h]
  | .move source target place, _ => by
      simp [toJson, Json.faithful_ofFields_iff]
  | .batch cs, h => by
      rw [Bears] at h
      simpa [toJson, Json.faithful_obj_iff, Json.faithful_arr_iff] using faithful_toJsonAll h

theorem faithful_toJsonAll : ∀ {cs : List Command}, AllBear Aggregation.ReadsBack cs →
    ∀ j ∈ toJsonAll cs, j.Faithful
  | [], _ => by
      simp [toJsonAll]
  | c :: rest, h => by
      rw [AllBear] at h
      rw [toJsonAll, List.forall_mem_cons]
      exact ⟨faithful_toJson h.1, faithful_toJsonAll h.2⟩

end

end Command

/-! ## Trees -/

namespace Tree

variable {t : Tree}

/-- A tree that is well formed holds the records that it lists. -/
theorem WellFormed.holds (h : t.WellFormed) : t.Holds t.toList := by
  intro id r
  constructor
  · intro hr
    have hentry := t.records.find?_eq_some_iff.1 hr
    exact ⟨List.mem_map.2 ⟨(id, r), hentry, rfl⟩, h.named hr⟩
  · rintro ⟨hr, rfl⟩
    obtain ⟨⟨id, r⟩, hentry, rfl⟩ := List.mem_map.1 hr
    have hfind := t.records.find?_eq_some_iff.2 hentry
    rwa [h.named hfind]

/-- The records of a tree that is well formed are loaded as the same tree. -/
theorem WellFormed.ofList_toList (h : t.WellFormed) : ofList t.toList = .ok t := by
  refine ofList_eq_ok_iff.2 ⟨foldlM_enter_eq_ok_iff.2 ⟨⟨fun r hr hkind => ?_, ?_⟩, h.holds⟩,
    h.parentsOf_eq⟩
  · exact (h.kind_iff ((h.holds r.id r).2 ⟨hr, rfl⟩)).1 hkind
  · exact List.pairwise_map.2 (h.holds.sorted_toList.imp fun hlt heq => by
      rw [heq] at hlt
      exact UInt64.lt_irrefl _ hlt)

theorem Bears.of_mem_toList {P : Aggregation → Prop} (h : t.Bears P) {r : Record}
    (hr : r ∈ t.toList) : r.Bears P := by
  obtain ⟨⟨id, r⟩, hentry, rfl⟩ := List.mem_map.1 hr
  exact h id r (t.records.find?_eq_some_iff.2 hentry)

theorem listOfJson?_toJson (h : t.Bears Aggregation.Finite) :
    Record.listOfJson? t.toJson = some t.toList :=
  Json.mapM_map_eq_some fun _ hr => Record.ofJson?_toJson (h.of_mem_toList hr)

theorem faithful_toJson (h : t.Bears Aggregation.ReadsBack) : t.toJson.Faithful :=
  Json.faithful_arr_iff.2
    (List.forall_mem_map.2 fun _ hr => Record.faithful_toJson (h.of_mem_toList hr))

theorem levels_toJson (t : Tree) : t.toJson.levels ≤ 5 :=
  Json.levels_arr_le_iff.2 (List.forall_mem_map.2 fun r _ => r.levels_toJson)

end Tree

/-! ## Weights -/

/-- An edit gives no column another weight than it had, except for the weight 1 of new ones. -/
theorem Aggregation.kept_weights (l : Library) {P : Float → Prop} (hone : P 1.0) :
    Aggregation.Kept l (Weights P) where
  standard _ hc := absurd hc List.not_mem_nil
  without _ h c hc := h c (List.mem_filter.1 hc).1
  afterRemoval _ _ h c hc := by
    rw [columns_afterRemoval] at hc
    exact h c (List.mem_filter.1 hc).1
  byHand {before} children {_ _} h _ c hc := by
    obtain ⟨r, -, rfl⟩ := List.mem_map.1 hc
    unfold Editor.contributionOf
    split
    · next d hd => exact h d (List.mem_of_find?_eq_some hd)
    · exact hone

theorem Editor.bears_alone (P : Aggregation → Prop) (l : Library) (name : String) :
    (ofTree l (.alone name)).Bears P := by
  refine ⟨fun id r hr a ha => ?_, by simp [ofTree]⟩
  rw [show (ofTree l (.alone name)).tree.find? id = _ from IdMap.find?_insert _ _ _ _] at hr
  split at hr
  · rw [← Option.some.inj hr] at ha
    cases ha
  · cases hr

/-- What all weights have, those of the commands and the weight 1 too, all weights have after a run. -/
theorem Editor.Bears.run_weights {P : Float → Prop} {e : Editor} (h : e.Reached) (hone : P 1.0)
    (hweights : e.Bears (Aggregation.Weights P)) {acts : List Act}
    (hacts : e.Keeps (fun _ c => c.Bears (Aggregation.Weights P)) acts) :
    (e.run acts).Bears (Aggregation.Weights P) :=
  (Aggregation.kept_weights e.library hone).run h.wellFormed hweights hacts

/-! ## Exports -/

/-- What is stored is read back from its text if it is read back from its value. -/
theorem bind_parse?_render {α : Type} {j : Json} {read : Json → Option α} {a : α} (h : j.Faithful)
    (hlevels : j.levels ≤ 127) (hread : read j = some a) :
    (Json.parse? j.render).bind read = some a := by
  rw [Json.parse?_render h hlevels, Option.bind_some, hread]

theorem Tree.ofText?_render {t : Tree} (h : t.WellFormed) (hfinite : t.Bears Aggregation.Finite)
    (hback : t.Bears Aggregation.ReadsBack) : Tree.ofText? t.toJson.render = some (.ok t) := by
  have hlevels := t.levels_toJson
  have hread := bind_parse?_render (faithful_toJson hback) (by omega) (listOfJson?_toJson hfinite)
  obtain ⟨j, hj, hlist⟩ := Option.bind_eq_some_iff.1 hread
  rw [ofText?, hj]
  simp [hlist, h.ofList_toList]

/-- Let all weights be finite.  The records of a tree that an editor reaches are read back from their
stored form, and loading them gives the same tree with the same index of parents.  Single records,
patches and commands are read back too, batches at any depth; so an aggregation that a patch leaves
alone, takes away or sets stays apart, and so does one that a record lacks from one that is standard.

The text of each is read back where the reader of numbers reads back the weights; a command must not nest
deeper than the reader goes, which the others never do. -/
theorem stored_read_back :
    (∀ e : Editor, e.Reached → e.tree.Bears Aggregation.Finite →
      Record.listOfJson? e.tree.toJson = some e.tree.toList ∧
        Tree.ofList e.tree.toList = .ok e.tree ∧
        (e.tree.Bears Aggregation.ReadsBack →
          Tree.ofText? e.tree.toJson.render = some (.ok e.tree))) ∧
    (∀ r : Record, r.Bears Aggregation.Finite → Record.ofJson? r.toJson = some r ∧
      (r.Bears Aggregation.ReadsBack → (Json.parse? r.toJson.render).bind Record.ofJson? = some r)) ∧
    (∀ p : Patch, p.Bears Aggregation.Finite → Patch.ofJson? p.toJson = some p ∧
      (p.Bears Aggregation.ReadsBack → (Json.parse? p.toJson.render).bind Patch.ofJson? = some p)) ∧
    (∀ c : Command, c.Bears Aggregation.Finite → Command.ofJson? c.toJson = some c ∧
      (c.Bears Aggregation.ReadsBack → c.toJson.levels ≤ 127 →
        (Json.parse? c.toJson.render).bind Command.ofJson? = some c)) := by
  refine ⟨fun e h hfinite => ?_, fun r hfinite => ?_, fun p hfinite => ?_, fun c hfinite => ?_⟩
  · exact ⟨Tree.listOfJson?_toJson hfinite, h.wellFormed.ofList_toList,
      Tree.ofText?_render h.wellFormed hfinite⟩
  · have hread := Record.ofJson?_toJson hfinite
    have hlevels := r.levels_toJson
    exact ⟨hread, fun hback => bind_parse?_render (r.faithful_toJson hback) (by omega) hread⟩
  · have hread := Patch.ofJson?_toJson hfinite
    have hlevels := p.levels_toJson
    exact ⟨hread, fun hback => bind_parse?_render (p.faithful_toJson hback) (by omega) hread⟩
  · have hread := Command.ofJson?_toJson hfinite
    exact ⟨hread, fun hback hlevels => bind_parse?_render (c.faithful_toJson hback) hlevels hread⟩

/-- A mean with a weight is added with its column; a batch in a batch leaves its aggregation alone, takes
it away, and sets the standard one. -/
theorem stored_read_back_mean :
    let a : Aggregation := ⟨.mean, "", "", [⟨2, "a", 2.5, true⟩]⟩
    let r : Record := ⟨1, "m", .aggregation, .number, "", true, [], some a⟩
    let c : Command := .batch [.add 0 r none, .batch [.add 1 (.column 2 "a") (some 0),
      .update 1 { Patch.empty with shown := some false }]]
    let e := ((Editor.ofTree .empty (.alone "t")).apply c).1
    let d : Command := .batch [.batch [.update 1 (.ofAggregation none)],
      .update 1 (.ofAggregation (some .standard)), .remove 1]
    e.Reached ∧ Tree.ofText? e.tree.toJson.render = some (.ok e.tree) ∧
      (Json.parse? r.toJson.render).bind Record.ofJson? = some r ∧
      (Json.parse? Patch.empty.toJson.render).bind Patch.ofJson? = some Patch.empty ∧
      (Json.parse? c.toJson.render).bind Command.ofJson? = some c ∧
      (Json.parse? d.toJson.render).bind Command.ofJson? = some d := by
  intro a r c e d
  have h : e.Reached := .apply _ (.alone .empty "t")
  have hr : ∀ P : Float → Prop, P 2.5 → r.Bears (Aggregation.Weights P) := by
    intro P hweight
    simp [r, a, Record.Bears, Aggregation.Weights, hweight]
  have hp : ∀ P : Aggregation → Prop, Patch.empty.Bears P := by
    intro P
    simp [Patch.Bears, Patch.empty]
  have hc : ∀ P : Float → Prop, P 2.5 → c.Bears (Aggregation.Weights P) := by
    intro P hweight
    simp [c, r, a, Command.Bears, Command.AllBear, Record.Bears, Patch.Bears, Record.column,
      Patch.empty, Aggregation.Weights, hweight]
  have he : ∀ P : Float → Prop, P 1.0 → P 2.5 → e.tree.Bears (Aggregation.Weights P) := by
    intro P hone hweight
    have halone := Editor.bears_alone (Aggregation.Weights P) .empty "t"
    refine (halone.run_weights (.alone .empty "t") hone (?_ : Editor.Keeps _ _ [.apply c])).tree
    refine .cons ?_ (.nil _ _)
    rintro _ ⟨⟩
    exact (hc P hweight).eachEdit
  have hd : ∀ P : Float → Prop, d.Bears (Aggregation.Weights P) := by
    intro P
    simp [d, Command.Bears, Command.AllBear, Patch.Bears, Patch.ofAggregation, Patch.empty,
      Aggregation.Weights, Aggregation.standard, Aggregation.fresh]
  obtain ⟨htree, hrecord, hpatch, hcommand⟩ := stored_read_back
  have hone : Json.ReadsBack 1.0 := rfl
  have hweight : Json.ReadsBack 2.5 := rfl
  exact ⟨h, (htree e h (he _ (by decide) (by decide))).2.2 (he _ hone hweight),
    (hrecord r (hr _ (by decide))).2 (hr _ hweight), (hpatch _ (hp _)).2 (hp _),
    (hcommand c (hc _ (by decide))).2 (hc _ hweight) (by decide),
    (hcommand d (hd _)).2 (hd _) (by decide)⟩

end Outline

end ColumnTree
