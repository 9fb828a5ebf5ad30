/-
# What is kept of aggregations

Aggregations stand in the records of a tree, in the commands that edit it and in the inverses that
its log holds.  An edit writes them in five places: it takes one from its command, gives a new record
the standard one, makes the formula of one again or clears it when a child has left, strikes a record
off its own list, and takes one over from a text written by hand.  What all of these keep (`Kept`),
whole runs keep, in the tree and in the log (`Kept.run`).

One such property is that what is executed comes from the formula: `Compiles`.
-/
import ColumnTree.Proofs.Outline.Undo

namespace ColumnTree.Outline

open Formula

/-! ## Where aggregations stand -/

section Bearing

variable (P : Aggregation → Prop)

/-- The aggregation of a record, if it has one, has a property. -/
def Record.Bears (r : Record) : Prop :=
  ∀ a, r.aggregation? = some a → P a

/-- The aggregations of all records have a property. -/
def Tree.Bears (t : Tree) : Prop :=
  ∀ id r, t.find? id = some r → r.Bears P

/-- If a patch sets an aggregation, that has a property. -/
def Patch.Bears (p : Patch) : Prop :=
  ∀ a, p.aggregation = some (some a) → P a

mutual

/-- The aggregations that a command carries have a property, at any depth of batches. -/
def Command.Bears : Command → Prop
  | .add _ r _ => r.Bears P
  | .update _ p => p.Bears P
  | .batch cs => Command.AllBear cs
  | .remove _ | .move .. => True

/-- The same for commands in order. -/
def Command.AllBear : List Command → Prop
  | [] => True
  | c :: rest => Command.Bears c ∧ Command.AllBear rest

end

/-- The aggregations in the tree of an editor have a property, and so have those in the inverses that
its log holds. -/
structure Editor.Bears (e : Editor) : Prop where
  tree : e.tree.Bears P
  log : ∀ entry ∈ e.log, entry.inverse.Bears P

end Bearing

/-- A property of aggregations that the upkeep of formulas keeps. -/
structure Aggregation.Kept (l : Library) (P : Aggregation → Prop) : Prop where
  standard : P .standard
  without : ∀ {a} id, P a → P (a.without id)
  afterRemoval : ∀ {a} name gone, P a → P (a.afterRemoval l name gone).1
  byHand : ∀ {before} children {text compiled}, P before → compileText l text = .ok compiled →
    P (Editor.byHand before children text compiled)

theorem Command.allBear_iff {P : Aggregation → Prop} {cs : List Command} :
    AllBear P cs ↔ ∀ c ∈ cs, c.Bears P := by
  induction cs with
  | nil => simp [AllBear]
  | cons c rest ih => rw [AllBear, ih, List.forall_mem_cons]

theorem Command.Bears.eachEdit {P : Aggregation → Prop} {l : Library} {c : Command} {t : Tree}
    (h : c.Bears P) : Tree.EachEdit l (fun _ c => c.Bears P) c t := by
  induction c using Command.induction generalizing t with
  | edit c hsingle => exact (Tree.eachEdit_of_edit hsingle).2 fun _ => h
  | batch cs ih =>
      rw [Command.Bears] at h
      rw [Tree.EachEdit]
      induction cs generalizing t with
      | nil => rw [Tree.EachEditOf]; trivial
      | cons c rest ihrest =>
          obtain ⟨ihc, ih⟩ := List.forall_mem_cons.1 ih
          rw [Command.AllBear] at h
          rw [Tree.EachEditOf]
          exact ⟨ihc h.1, ihrest ih h.2⟩

/-! ## Records and patches -/

section Records

variable {P : Aggregation → Prop} {r : Record}

theorem Patch.Bears.apply {p : Patch} (hp : p.Bears P) (hr : r.Bears P) : (p.apply r).Bears P := by
  intro a ha
  change p.aggregation.getD r.aggregation? = some a at ha
  cases hpa : p.aggregation with
  | none => exact hr a (by rwa [hpa] at ha)
  | some o => exact hp a (by rw [hpa]; rw [hpa] at ha; exact congrArg _ ha)

theorem Patch.Bears.allowed {p : Patch} (hp : p.Bears P) (r : Record) : (p.allowed r).Bears P := by
  unfold Patch.allowed
  dsimp only
  split
  · exact hp
  · exact hp

theorem Record.Bears.capture (hr : r.Bears P) (p : Patch) : (p.capture r).Bears P := by
  intro a ha
  obtain ⟨-, -, heq⟩ := Option.map_eq_some_iff.1 ha
  exact hr a heq

/-- What is made of records keeps a property if making it does. -/
theorem Record.bears_of_map {o : Option Record} {f : Record → Record}
    (ho : ∀ r, o = some r → r.Bears P) (hf : ∀ r, r.Bears P → (f r).Bears P) :
    ∀ r, o.map f = some r → r.Bears P := by
  intro r hr
  obtain ⟨r', hr', rfl⟩ := Option.map_eq_some_iff.1 hr
  exact hf r' (ho r' hr')

theorem Patch.bears_ofAggregation {a : Aggregation} :
    (Patch.ofAggregation (some a)).Bears P ↔ P a := by
  constructor
  · intro h
    exact h a rfl
  · intro h b hb
    rwa [← Option.some.inj (Option.some.inj hb)]

variable {l : Library} (hP : Aggregation.Kept l P)

include hP

theorem Record.Bears.completed (hr : r.Bears P) : r.completed.Bears P := by
  unfold Record.completed
  split
  · intro a ha
    rw [← Option.some.inj ha]
    exact hP.standard
  · exact hr

theorem Record.Bears.unlisting (hr : r.Bears P) (id : RecordId) : (r.unlisting id).Bears P := by
  intro a ha
  obtain ⟨b, hb, rfl⟩ := Option.map_eq_some_iff.1 ha
  exact hP.without id (hr b hb)

theorem Record.Bears.following (hr : r.Bears P) (gone : Record) :
    (r.following l gone).Bears P := by
  unfold Record.following Tree.followRemoval
  by_cases hk : r.kind = .aggregation
  · rw [if_pos hk]
    cases ha : r.aggregation? with
    | none => exact hr
    | some a =>
        intro b hb
        rw [← Option.some.inj hb]
        exact hP.afterRemoval _ _ (hr a ha)
  · rw [if_neg hk]
    exact hr

end Records

/-! ## Single edits -/

namespace Aggregation.Kept

variable {l : Library} {P : Aggregation → Prop} (hP : Aggregation.Kept l P)

include hP

section Edit

variable {t : Tree} (h : t.WellFormed) (ht : t.Bears P)

include h ht

theorem add {r : Record} (hr : r.Bears P) (parent : RecordId) (place : Option UInt64) :
    (t.add parent r place).tree.Bears P := by
  by_cases hc : t.CanAdd parent r
  · intro q rq hq
    rw [hc.find? place h.toLinked] at hq
    split at hq
    · rw [← Option.some.inj hq]
      exact Record.Bears.completed hP hr
    · -- The records that were there have only their children changed.
      have hkept := Record.bears_of_map (f := Record.keeping fun c =>
        !(t.adoptees parent r.children).contains c) (ht q) fun _ h => h
      split at hq
      · exact Record.bears_of_map (f := Record.inserting place r.id) hkept (fun _ h => h) rq hq
      · exact hkept rq hq
  · rw [Tree.add_of_not hc]
    exact ht

theorem remove (x : RecordId) : (t.remove l x).tree.Bears P := by
  by_cases hc : t.CanRemove x
  · obtain ⟨p, gone, r, hp, hx, hr, hid⟩ := h.exists_parent_record hc
    have hpx : p ≠ x := (h.ne_of_mem (h.parent_iff.1 hp)).symm
    have hspliced : (r.splicing x gone.children).Bears P := ht p r hr
    intro q rq hq
    rw [Tree.find?_remove hp hx hr hid hc.ne_root hpx] at hq
    split at hq
    · cases hq
    · split at hq
      · rw [← Option.some.inj hq]
        exact hspliced.following hP gone
      · exact ht q rq hq
  · rw [Tree.remove_of_not hc]
    exact ht

omit hP h in
theorem update {p : Patch} (hp : p.Bears P) (id : RecordId) : (t.update id p).tree.Bears P := by
  cases hr : t.find? id with
  | none =>
      rw [Tree.update_of_find?_none hr]
      exact ht
  | some r =>
      intro q rq hq
      rw [Tree.find?_update hr] at hq
      split at hq
      · rw [← Option.some.inj hq]
        exact (hp.allowed r).apply (ht id r hr)
      · exact ht q rq hq

theorem move (s target : RecordId) (place : Option UInt64) :
    (t.move s target place).tree.Bears P := by
  by_cases hc : t.CanMove s target
  · obtain ⟨old, r, hold, hr⟩ := h.exists_parent_of_move hc
    intro q
    have hkept := Record.bears_of_map (f := Record.keeping (· != s)) (ht q) fun _ h => h
    rw [Tree.find?_move h.toLinked hc hold hr]
    dsimp only
    split
    · refine Record.bears_of_map ?_ fun _ ho => Record.Bears.unlisting hP ho s
      split
      · exact Record.bears_of_map hkept fun _ h => h
      · exact hkept
    · split
      · exact Record.bears_of_map hkept fun _ h => h
      · exact hkept
  · rw [h.move_of_not hc]
    exact ht

omit hP in
/-- The inverse of an edit carries only what was in the tree before. -/
theorem inverse? {c : Command} (hc : ∀ cs, c ≠ .batch cs) {inv : Command}
    (hinv : (t.apply l c).inverse? = some inv) : inv.Bears P := by
  cases c with
  | add parent r place =>
      rw [Tree.apply] at hinv
      by_cases hadd : t.CanAdd parent r
      · rw [hadd.inverse?] at hinv
        rw [← Option.some.inj hinv, Command.Bears]
        trivial
      · rw [Tree.add_of_not hadd] at hinv
        cases hinv
  | remove x =>
      rw [Tree.apply] at hinv
      by_cases hremove : t.CanRemove x
      · obtain ⟨p, gone, r, hp, hx, hr, hid⟩ := h.exists_parent_record hremove
        have hpx : p ≠ x := (h.ne_of_mem (h.parent_iff.1 hp)).symm
        have hback : (Command.add p gone (some (placeOf gone.id r.children))).Bears P := by
          rw [Command.Bears]
          exact ht x gone hx
        rw [Tree.inverse?_remove hp hx hr hid hremove.ne_root hpx] at hinv
        rw [← Option.some.inj hinv]
        rcases Tree.restoring_cases l p gone r with ⟨heq, -⟩ | ⟨before, hbefore, heq⟩
        · rw [heq]
          exact hback
        · have hupdate : (Command.update p (.ofAggregation (some before))).Bears P := by
            rw [Command.Bears]
            exact Patch.bears_ofAggregation.2 (ht p r hr before hbefore)
          rw [heq, Command.Bears]
          exact Command.allBear_iff.2 (by simp [hback, hupdate])
      · rw [Tree.remove_of_not hremove] at hinv
        cases hinv
  | update id p =>
      rw [Tree.apply] at hinv
      cases hr : t.find? id with
      | none =>
          rw [Tree.update_of_find?_none hr] at hinv
          cases hinv
      | some r =>
          rw [Tree.update_of_find? hr] at hinv
          split at hinv
          · cases hinv
          · rw [← Option.some.inj hinv, Command.Bears]
            exact (ht id r hr).capture _
  | move source target place =>
      rw [Tree.apply] at hinv
      by_cases hmove : t.CanMove source target
      · obtain ⟨old, r, hold, hr⟩ := h.exists_parent_of_move hmove
        rw [Tree.inverse?_move h.toLinked hmove hold hr] at hinv
        have hback : (Command.move source old (some (placeOf source (t.children old)))).Bears P := by
          rw [Command.Bears]
          trivial
        rw [← Option.some.inj hinv, Tree.movingBack]
        cases ha : r.aggregation? with
        | none => exact hback
        | some a =>
            dsimp only
            split
            · have hupdate : (Command.update source (.ofAggregation (some a))).Bears P := by
                rw [Command.Bears]
                exact Patch.bears_ofAggregation.2 (ht source r hr a ha)
              rw [Command.Bears]
              exact Command.allBear_iff.2 (by simp [hback, hupdate])
            · exact hback
      · rw [h.move_of_not hmove] at hinv
        cases hinv
  | batch cs => exact absurd rfl (hc cs)

/-- An edit of one record that carries what it should, if it does something. -/
theorem edit {c : Command} (hc : ∀ cs, c ≠ .batch cs)
    (hcarry : (t.apply l c).inverse? ≠ none → c.Bears P) : (t.apply l c).tree.Bears P := by
  cases hinv : (t.apply l c).inverse? with
  | none =>
      rw [Tree.tree_eq_of_inverse?_eq_none h hc hinv]
      exact ht
  | some inv =>
      have hcarry := hcarry (by simp [hinv])
      cases c with
      | add parent r place =>
          rw [Command.Bears] at hcarry
          rw [Tree.apply]
          exact hP.add h ht hcarry parent place
      | remove x =>
          rw [Tree.apply]
          exact hP.remove h ht x
      | update id p =>
          rw [Command.Bears] at hcarry
          rw [Tree.apply]
          exact update ht hcarry id
      | move source target place =>
          rw [Tree.apply]
          exact hP.move h ht source target place
      | batch cs => exact absurd rfl (hc cs)

end Edit

/-! ## Commands -/

omit hP

/-- A command that carries what it should leaves nothing else in the tree, and its inverse carries
nothing else. -/
theorem command (hP : Aggregation.Kept l P) (c : Command) {t : Tree} (h : t.WellFormed)
    (ht : t.Bears P) (hc : Tree.EachEdit l (fun _ c => c.Bears P) c t) :
    (t.apply l c).tree.Bears P ∧ ∀ inv, (t.apply l c).inverse? = some inv → inv.Bears P := by
  refine ⟨hc.keeps (fun hsingle h ht hc => hP.edit h ht hsingle hc) c h ht, ?_⟩
  induction c using Command.induction generalizing t with
  | edit c hsingle => exact fun _ => inverse? h ht hsingle
  | batch cs ih =>
      rw [Tree.EachEdit] at hc
      have hinverses : ∀ inv ∈ (Tree.applyAll l cs t).inverses, inv.Bears P := by
        induction cs generalizing t with
        | nil =>
            rw [Tree.applyAll]
            exact List.forall_mem_nil _
        | cons c rest ihrest =>
            obtain ⟨ihc, ih⟩ := List.forall_mem_cons.1 ih
            rw [Tree.EachEditOf] at hc
            have htree := hc.1.keeps (fun hsingle h ht hc => hP.edit h ht hsingle hc) c h ht
            intro inv hinv
            rw [Tree.applyAll] at hinv
            rcases List.mem_append.1 hinv with hinv | hinv
            · exact ihrest ih (h.apply l c) htree hc.2 inv hinv
            · exact ihc h ht hc.1 inv (Option.mem_toList.1 hinv)
      intro inv hinv
      rw [Tree.apply] at hinv
      simp only [Tree.Run.outcome] at hinv
      split at hinv
      · cases hinv
      · rw [← Option.some.inj hinv, Command.Bears]
        exact Command.allBear_iff.2 hinverses

end Aggregation.Kept

/-! ## Runs -/

section Run

variable {P : Aggregation → Prop} {e : Editor} (hP : Aggregation.Kept e.library P)
  (hw : e.tree.WellFormed) (he : e.Bears P)

include hP hw he

theorem Editor.Bears.apply {c : Command}
    (hc : Tree.EachEdit e.library (fun _ c => c.Bears P) c e.tree) : (e.apply c).1.Bears P := by
  obtain ⟨htree, hinverse⟩ := hP.command c hw he.tree hc
  refine ⟨htree, fun entry hentry => ?_⟩
  rcases e.log_apply_cases c with hnil | ⟨inv, hinv, hcons⟩ | ⟨-, hsame⟩
  · rw [hnil] at hentry
    cases hentry
  · rw [hcons] at hentry
    rcases List.mem_cons.1 hentry with rfl | hentry
    · exact hinverse inv hinv
    · exact he.log entry hentry
  · rw [hsame] at hentry
    exact he.log entry hentry

theorem Editor.Bears.act (a : Act)
    (ha : ∀ c, a = .apply c → Tree.EachEdit e.library (fun _ c => c.Bears P) c e.tree) :
    (e.act a).Bears P := by
  cases a with
  | apply c => exact he.apply hP hw (ha c rfl)
  | setFormula id text =>
      simp only [Editor.act]
      cases hset : e.setFormula id text with
      | error f => exact he
      | ok r =>
          obtain ⟨e', warnings⟩ := r
          obtain ⟨before, children, compiled, hbefore, hcompiled, heq⟩ :=
            Editor.exists_byHand_of_setFormula hset
          have hPbefore : P before := by
            rw [hbefore]
            cases ha : (e.tree.find? id).bind (·.aggregation?) with
            | none => exact hP.standard
            | some a =>
                obtain ⟨r, hr, ha⟩ := Option.bind_eq_some_iff.1 ha
                exact he.tree id r hr a ha
          have hpatch := Patch.bears_ofAggregation.2 (hP.byHand children hPbefore hcompiled)
          dsimp only
          rw [heq]
          exact he.apply hP hw (Command.Bears.eachEdit (by rwa [Command.Bears]))
  | undo =>
      cases hundo : e.undo? with
      | none => simpa [Editor.act, hundo] using he
      | some e' =>
          obtain ⟨last, log, hlog, rfl⟩ := Editor.undo?_eq_some_iff.1 hundo
          simp only [Editor.act, hundo, Option.getD_some]
          have hlast := he.log last (by simp [hlog])
          exact ⟨(hP.command last.inverse hw he.tree hlast.eachEdit).1,
            fun entry hentry => he.log entry (by simp [hlog, hentry])⟩

end Run

/-- What upkeep keeps, a run keeps whose commands carry nothing else. -/
theorem Aggregation.Kept.run {P : Aggregation → Prop} {e : Editor}
    (hP : Aggregation.Kept e.library P) (hw : e.tree.WellFormed) (he : e.Bears P)
    {acts : List Act} (hacts : e.Keeps (fun _ c => c.Bears P) acts) : (e.run acts).Bears P := by
  induction acts using List.reverseRecOn with
  | nil => exact he
  | append_singleton acts a ih =>
      rw [Editor.run_snoc]
      have hlib := e.library_run acts
      refine (ih hacts.of_snoc).act (by rwa [hlib]) (Editor.wellFormed_run hw acts) a ?_
      rintro c rfl
      rw [hlib]
      exact hacts.last

/-! ## What is executed -/

/-- What is executed is what the formula compiles to; without a formula it is nothing. -/
def Aggregation.Compiles (l : Library) (a : Aggregation) : Prop :=
  (a.formula = "" ∧ a.exec = "") ∨ ∃ e, compileText l a.formula = .ok e ∧ e.exec = a.exec

theorem Aggregation.kept_compiles (l : Library) : Aggregation.Kept l (Aggregation.Compiles l) where
  standard := .inl ⟨rfl, rfl⟩
  without _ h := h
  afterRemoval {a} name gone h := by
    rcases a.afterRemoval_cases with
      ⟨-, heq⟩ | ⟨-, ⟨-, heq⟩ | ⟨formula, compiled, hgenerate, heq⟩ | ⟨_, -, heq⟩⟩
    · rw [heq]
      exact .inl ⟨rfl, rfl⟩
    · rw [heq]
      exact h
    · rw [heq]
      exact .inr ⟨compiled, (generate_eq_valid_iff.1 hgenerate).2, rfl⟩
    · rw [heq]
      exact .inl ⟨rfl, rfl⟩
  byHand {_} _ {_ compiled} _ hcompiled := .inr ⟨compiled, hcompiled, rfl⟩

/-- Let a run begin with an empty log and with aggregations that execute what their formulas compile
to, and let every command of it that does something carry only such aggregations.  Then all
aggregations of the tree are of that kind after the run, and so are those in the inverses that the
log holds. -/
theorem Editor.compiles_run {e : Editor} (hw : e.tree.WellFormed) (hlog : e.log = [])
    (htree : e.tree.Bears (Aggregation.Compiles e.library)) {acts : List Act}
    (hacts : e.Keeps (fun _ c => c.Bears (Aggregation.Compiles e.library)) acts) :
    (∀ id r a, (e.run acts).tree.find? id = some r → r.aggregation? = some a →
        a.Compiles e.library) ∧
      ∀ entry ∈ (e.run acts).log, entry.inverse.Bears (Aggregation.Compiles e.library) := by
  have he : e.Bears (Aggregation.Compiles e.library) := ⟨htree, by simp [hlog]⟩
  have hrun := (Aggregation.kept_compiles e.library).run hw he hacts
  exact ⟨fun id r a hr => hrun.tree id r hr a, hrun.log⟩

/-- An aggregation is added together with its column and given another formula by hand; it is renamed
and named back, and its column is moved away. -/
theorem Editor.compiles_run_byHand :
    let l : Library := .empty
    let a : Aggregation := ⟨.sum, "$(a)", "r => r[\"a\"]", [.ofColumn 2 "a"]⟩
    let r : Record := ⟨1, "b", .aggregation, .number, "", true, [], some a⟩
    let e : Editor := ofTree l (.alone "t")
    let acts : List Act := [.apply (.batch [.add 0 r none, .batch [.add 1 (.column 2 "a") none]]),
      .setFormula 1 "$(a) + 1", .apply (.update 1 { Patch.empty with name := "c" }), .undo,
      .apply (.move 2 0 none)]
    ((e.run acts).tree.find? 1).map (·.formula) = some "$(a) + 1" ∧
      (∀ id r a, (e.run acts).tree.find? id = some r → r.aggregation? = some a → a.Compiles l) ∧
      (e.run acts).log.length = 3 ∧
        ∀ entry ∈ (e.run acts).log, entry.inverse.Bears (·.Compiles l) := by
  intro l a r e acts
  have ha : a.Compiles l := .inr ⟨.column "a", by cbv, by decide⟩
  have halone : e.tree.Bears (·.Compiles l) := by
    intro id r hr a ha
    rw [show e.tree.find? id = _ from IdMap.find?_insert _ _ _ _] at hr
    split at hr
    · rw [← Option.some.inj hr] at ha
      cases ha
    · cases hr
  have hacts : e.Keeps (fun _ c => c.Bears (·.Compiles l)) acts := by
    refine .cons ?_ (.cons ?_ (.cons ?_ (.cons ?_ (.cons ?_ (.nil _ _)))))
    · rintro _ ⟨⟩
      refine Command.Bears.eachEdit ?_
      simp [Command.Bears, Command.AllBear, Record.Bears, r, Record.column, ha]
    · rintro _ ⟨⟩
    · rintro _ ⟨⟩
      refine Command.Bears.eachEdit ?_
      simp [Command.Bears, Patch.Bears, Patch.empty]
    · rintro _ ⟨⟩
    · rintro _ ⟨⟩
      refine Command.Bears.eachEdit ?_
      simp [Command.Bears]
  obtain ⟨htree, hlog⟩ := Editor.compiles_run (.alone "t") rfl halone hacts
  exact ⟨by decide +kernel, htree, by decide +kernel, hlog⟩

end ColumnTree.Outline
