/-
# How a session behaves

What a line does to the editor and what it is replied to (`conduct`), for every editor and every line.
The only thing that an `id` decides is whether there is a reply and what stands in it; so a
notification changes the editor as the request does, also over a whole session (`after_eq`).

What a request can do is listed once, in `Handled`; nothing after that looks into the methods.
-/
import ColumnTree.Proofs.Outline.Reached
import ColumnTree.Proofs.Session.Request
import ColumnTree.Session.Transcript

namespace ColumnTree.Session

open Outline

variable {e : Editor} {r : Request} {line : String}

/-! ## What a request can do -/

/-- The methods that may change the editor. -/
def changing : List String :=
  ["tree/load", "tree/apply", "tree/undo"]

/-- What a request can do. -/
inductive Handled (e : Editor) (r : Request) : Answered → Prop where
  /-- A question. -/
  | asked : r.method ∉ changing → Handled e r (e, ask e r.method r.params)
  /-- The parameters hold no tree. -/
  | notLoaded {reason : Refusal} : r.method = "tree/load" → treeOf r.params = .error reason →
      Handled e r (e, .error reason)
  /-- The tree in the parameters. -/
  | loaded {t : Tree} {result : Json} : r.method = "tree/load" → treeOf r.params = .ok t →
      Handled e r (e.load t, .ok result)
  /-- The parameters hold no command. -/
  | notApplied {reason : Refusal} : r.method = "tree/apply" → commandOf r.params = .error reason →
      Handled e r (e, .error reason)
  /-- The command in the parameters. -/
  | applied {c : Command} {result : Json} : r.method = "tree/apply" → commandOf r.params = .ok c →
      Handled e r ((e.apply c).1, .ok result)
  /-- There is no edit to take back. -/
  | notUndone {result : Json} : r.method = "tree/undo" → e.undo? = none →
      Handled e r (e, .ok result)
  /-- The last edit is taken back. -/
  | undone {e' : Editor} {result : Json} : r.method = "tree/undo" → e.undo? = some e' →
      Handled e r (e', .ok result)

theorem handled_handle (e : Editor) (r : Request) : Handled e r (handle e r) := by
  unfold handle
  split
  · next hmethod =>
      unfold loadTree
      cases ht : treeOf r.params with
      | error reason => exact .notLoaded hmethod ht
      | ok t => exact .loaded hmethod ht
  · next hmethod =>
      unfold applyCommand
      cases hc : commandOf r.params with
      | error reason => exact .notApplied hmethod hc
      | ok c => exact .applied hmethod hc
  · next hmethod =>
      unfold undoLast
      cases he : e.undo? with
      | none => exact .notUndone hmethod he
      | some e' => exact .undone hmethod he
  · next hload happly hundo =>
      refine .asked fun hmem => ?_
      simp only [changing, List.mem_cons, List.not_mem_nil, or_false] at hmem
      exact hmem.elim hload fun hmem => hmem.elim happly hundo

/-- The `id` has no say in what is done. -/
theorem handle_withoutId (e : Editor) (r : Request) : handle e { r with id? := none } = handle e r :=
  rfl

theorem exists_of_treeOf {params : Json} {t : Tree} (h : treeOf params = .ok t) :
    ∃ records, Tree.ofList records = .ok t := by
  obtain ⟨fields, -, h⟩ := bind_eq_ok_iff.1 h
  obtain ⟨records, -, h⟩ := bind_eq_ok_iff.1 h
  refine ⟨records, ?_⟩
  cases hlist : Tree.ofList records with
  | error fault =>
      rw [hlist] at h
      cases h
  | ok t' =>
      rw [hlist] at h
      cases h
      rfl

theorem reached_handle (h : e.Reached) (r : Request) : (handle e r).1.Reached := by
  have hr := handled_handle e r
  generalize handle e r = answered at hr
  cases hr with
  | asked | notLoaded | notApplied | notUndone => exact h
  | loaded _ ht =>
      obtain ⟨records, hrecords⟩ := exists_of_treeOf ht
      exact .loaded e.library hrecords
  | @applied c => exact .apply c h
  | undone _ hundo => exact .undo h hundo

/-! ## What a line can do -/

/-- The request that a line is. -/
def Decodes (line : String) (r : Request) : Prop :=
  Request.ofText? (Text.trimmed line) = some r

/-- A line that is an object with these fields. -/
def IsObject (line : String) (fields : Fields) : Prop :=
  Json.parse? (Text.trimmed line) = some (.obj fields)

theorem IsObject.ofJson? {fields : Fields} (h : IsObject line fields) :
    Decodes line r ↔ Request.ofJson? (.obj fields) = some r := by
  rw [Decodes, Request.ofText?, show Json.parse? _ = _ from h, Option.bind_some]

theorem IsObject.unique {fields fields' : Fields} (h : IsObject line fields)
    (h' : IsObject line fields') : fields = fields' := by
  exact Json.obj.inj (Option.some.inj (h.symm.trans h'))

theorem Decodes.ne_empty (h : Decodes line r) : Text.trimmed line ≠ "" := by
  intro hempty
  rw [Decodes, hempty] at h
  cases h

theorem respond_of_blank (h : Text.trimmed line = "") : respond e line = (e, none) := by
  simp only [respond, h]
  rfl

theorem respond_of_forall_not (h : Text.trimmed line ≠ "") (hnot : ∀ r, ¬ Decodes line r) :
    respond e line = (e, some ⟨none, .error .noRequest⟩) := by
  have hnone : Request.ofText? (Text.trimmed line) = none := Option.eq_none_iff_forall_ne_some.2 hnot
  have hne : (Text.trimmed line).isEmpty = false := by simpa using h
  simp only [respond, hnone, hne]
  rfl

theorem fst_respond_of_forall_not (hnot : ∀ r, ¬ Decodes line r) : (respond e line).1 = e := by
  by_cases hblank : Text.trimmed line = ""
  · rw [respond_of_blank hblank]
  · rw [respond_of_forall_not hblank hnot]

theorem Decodes.respond_eq (h : Decodes line r) : respond e line =
    ((handle e r).1, r.id?.map fun i => ⟨some i, (handle e r).2⟩) := by
  have hne : (Text.trimmed line).isEmpty = false := by simpa using h.ne_empty
  simp only [respond, show Request.ofText? _ = _ from h, hne]
  rfl

/-! ## The conduct of a session -/

/-- Two lines that are objects and differ in their `id` only. -/
def SameButId (line line' : String) : Prop :=
  ∃ fields fields', IsObject line fields ∧ IsObject line' fields' ∧
    Request.withoutId fields = Request.withoutId fields'

/-- Two lines that are objects, the second being the first one without its `id`. -/
def DropsId (line line' : String) : Prop :=
  ∃ fields, IsObject line fields ∧ IsObject line' (Request.withoutId fields)

/-- Requests that differ in their `id` only do the same. -/
theorem SameButId.fst_respond_eq {line' : String} {r' : Request} (hsame : SameButId line line')
    (h : Decodes line r) (h' : Decodes line' r') : (respond e line').1 = (respond e line).1 := by
  obtain ⟨fields, fields', hfields, hfields', heq⟩ := hsame
  have hr : { r with id? := none } = { r' with id? := none } :=
    Request.eq_of_withoutId_eq (hfields.ofJson?.1 h) (hfields'.ofJson?.1 h') heq
  rw [h.respond_eq, h'.respond_eq, ← handle_withoutId, ← handle_withoutId e r, hr]

/-- A request without its `id` is a notification. -/
theorem DropsId.decodes {line' : String} (hdrops : DropsId line line') (h : Decodes line r) :
    Decodes line' { r with id? := none } := by
  obtain ⟨fields, hfields, hfields'⟩ := hdrops
  exact hfields'.ofJson?.2 (Request.ofJson?_withoutId (hfields.ofJson?.1 h))

/-- The last edit is taken back by a request and by a notification; only the request has a reply. -/
example :
    let e := ((Editor.ofTree .empty (.alone "t")).apply (.add 0 (.column 1 "a") none)).1
    let undo := "\"jsonrpc\":\"2.0\",\"method\":\"tree/undo\"\x7d"
    let request := respond e ("\x7b\"id\":7," ++ undo)
    let notice := respond e ("\x7b" ++ undo)
    e.log.length = 1 ∧ request.1.log.length = 0 ∧ notice.1.log.length = 0 ∧
      request.2.isSome = true ∧ notice.2.isSome = false := by
  decide +kernel

/-! ## Whole sessions -/

/-- The editor after some lines. -/
def after (e : Editor) (lines : List String) : Editor :=
  lines.foldl (fun e line => (respond e line).1) e

theorem after_cons (e : Editor) (line : String) (lines : List String) :
    after e (line :: lines) = after (respond e line).1 lines :=
  rfl

/-- Requests whose `id` alone may differ, or the same line. -/
def SameRequest (line line' : String) : Prop :=
  line = line' ∨ SameButId line line' ∧ (∃ r, Decodes line r) ∧ ∃ r', Decodes line' r'

/-- A session in which requests have other ids, or none, comes to the same editor. -/
theorem after_eq {lines lines' : List String} (h : List.Forall₂ SameRequest lines lines') :
    after e lines = after e lines' := by
  induction h generalizing e with
  | nil => rfl
  | cons hline _ ih =>
      have hstep : ∀ {line line' : String}, SameRequest line line' →
          (respond e line).1 = (respond e line').1 := by
        rintro line line' (rfl | ⟨hsame, ⟨r, hr⟩, r', hr'⟩)
        · rfl
        · exact (hsame.fst_respond_eq hr hr').symm
      rw [after_cons, after_cons, hstep hline]
      exact ih

/-- The editor that a session begins with. -/
theorem reached_initialTree (l : Library) (text? : Option String) :
    (Editor.ofTree l (initialTree text?)).Reached := by
  unfold initialTree
  split
  · next t ht =>
      obtain ⟨text, -, htext⟩ := Option.bind_eq_some_iff.1 ht
      obtain ⟨j, -, hj⟩ := Option.bind_eq_some_iff.1 htext
      obtain ⟨records, -, hrecords⟩ := Option.bind_eq_some_iff.1 hj
      exact .loaded l (Option.some.inj hrecords)
  · exact .alone l "root"

theorem reached_respond (h : e.Reached) (line : String) : (respond e line).1.Reached := by
  by_cases hnot : ∀ r, ¬ Decodes line r
  · rwa [fst_respond_of_forall_not hnot]
  · obtain ⟨r, hr⟩ := not_forall_not.1 hnot
    rw [hr.respond_eq]
    exact reached_handle h r

/-- All editors of a session are among those that there can be, and so their trees are well formed. -/
theorem reached_after (h : e.Reached) (lines : List String) : (after e lines).Reached := by
  induction lines generalizing e with
  | nil => exact h
  | cons line lines ih =>
      rw [after_cons]
      exact ih (reached_respond h line)

end ColumnTree.Session
