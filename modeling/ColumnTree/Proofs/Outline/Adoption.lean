/-
# Taking children over

The two rewirings that edits are made of: a record leaves the list of its parent, and a new record
adopts children.  Both are read as equations that say which record is found under a number, and
which parent, once they are done.

The children that a new record adopts are found one after the other in a tree that is only half
rewired.  `adopt_spec` says that this makes no difference: all of them can be told from the tree as
it was at the beginning, because nothing on the way up from the new record is ever adopted.
-/
import ColumnTree.Outline.Apply
import ColumnTree.Proofs.Outline.WellFormed

namespace ColumnTree.Outline

/-! ## Lists of children -/

theorem mem_insertAt {place : Option UInt64} {id c : RecordId} {l : List RecordId} :
    c ∈ insertAt place id l ↔ c = id ∨ c ∈ l := by
  cases place with
  | none => simp [insertAt, or_comm]
  | some i =>
      have hl : c ∈ l ↔ c ∈ l.take i.toNat ∨ c ∈ l.drop i.toNat := by
        rw [← List.mem_append, List.take_append_drop]
      simp only [insertAt, List.mem_append, List.mem_cons, hl]
      tauto

theorem nodup_insertAt {place : Option UInt64} {id : RecordId} {l : List RecordId}
    (hl : l.Nodup) (hid : id ∉ l) : (insertAt place id l).Nodup := by
  have hperm : (insertAt place id l).Perm (id :: l) := by
    cases place with
    | none => exact List.perm_append_singleton id l
    | some i =>
        refine List.perm_middle.trans ?_
        rw [List.take_append_drop]
  exact hperm.nodup_iff.2 (List.nodup_cons.2 ⟨hid, hl⟩)

theorem filter_insertAt (place : Option UInt64) (id : RecordId) (l : List RecordId) :
    (insertAt place id l).filter (· != id) = l.filter (· != id) := by
  cases place with
  | none => simp [insertAt]
  | some i =>
      rw [insertAt, List.filter_append, List.filter_cons_of_neg (by simp), ← List.filter_append,
        List.take_append_drop]

/-- The position that a place stands for among a number of items: the end if there is none, or if it
is farther than that. -/
def position (place : Option UInt64) (count : Nat) : Nat :=
  place.elim count fun i => min i.toNat count

theorem insertIdx_min_length (a : RecordId) (n : Nat) (l : List RecordId) :
    l.insertIdx (min n l.length) a = l.take n ++ a :: l.drop n := by
  induction l generalizing n with
  | nil => simp
  | cons b rest ih =>
      cases n with
      | zero => rfl
      | succ n => simp [ih, Nat.add_min_add_right]

theorem insertAt_eq_insertIdx (place : Option UInt64) (id : RecordId) (l : List RecordId) :
    insertAt place id l = l.insertIdx (position place l.length) id := by
  cases place with
  | none => exact List.insertIdx_length_self.symm
  | some i => exact (insertIdx_min_length id i.toNat l).symm

/-- A list cut at an item. -/
theorem takeWhile_append_dropWhile_of_mem {x : RecordId} {l : List RecordId} (h : x ∈ l) :
    l = l.takeWhile (· != x) ++ x :: (l.dropWhile (· != x)).drop 1 := by
  induction l with
  | nil => cases h
  | cons c rest ih =>
      by_cases hc : c = x
      · simp [hc]
      · have hx : x ∈ rest := (List.mem_cons.1 h).resolve_left fun heq => hc heq.symm
        simpa [hc] using ih hx

theorem splice_eq {x : RecordId} {others a b : List RecordId} (ha : x ∉ a) :
    splice x others (a ++ x :: b) = a ++ others ++ b := by
  have hall : ∀ c ∈ a, (c != x) = true := fun c hc => by
    simpa using fun heq : c = x => ha (heq ▸ hc)
  simp [splice, List.takeWhile_append_of_pos hall, List.dropWhile_append_of_pos hall]

theorem nodup_eraseDups : ∀ l : List RecordId, l.eraseDups.Nodup
  | [] => by simp
  | a :: rest => by
      rw [List.eraseDups_cons, List.nodup_cons]
      exact ⟨by simp [List.mem_eraseDups], nodup_eraseDups _⟩
termination_by l => l.length
decreasing_by
  have := List.length_filter_le (fun b => !b == a) rest
  simp only [List.length_cons]
  omega

theorem eraseDups_of_nodup {l : List RecordId} (h : l.Nodup) : l.eraseDups = l := by
  induction l with
  | nil => rfl
  | cons a rest ih =>
      obtain ⟨ha, hrest⟩ := List.nodup_cons.1 h
      have hf : rest.filter (fun b => !b == a) = rest :=
        List.filter_eq_self.2 fun b hb => by simpa using fun heq : b = a => ha (heq ▸ hb)
      rw [List.eraseDups_cons, hf, ih hrest]

namespace Record

/-- The record with only some of its children. -/
def keeping (keep : RecordId → Bool) (r : Record) : Record :=
  { r with children := r.children.filter keep }

theorem keeping_eq_self {keep : RecordId → Bool} {r : Record} (h : ∀ c ∈ r.children, keep c = true) :
    r.keeping keep = r := by
  unfold keeping
  rw [List.filter_eq_self.2 h]

theorem keeping_keeping (keep keep' : RecordId → Bool) (r : Record) :
    (r.keeping keep).keeping keep' = r.keeping fun c => keep c && keep' c := by
  simp only [keeping, List.filter_filter, Bool.and_comm]

/-- The record with a child put among its children. -/
def inserting (place : Option UInt64) (id : RecordId) (r : Record) : Record :=
  { r with children := insertAt place id r.children }

end Record

namespace Tree

/-! ## Taking a record out of its parent's list -/

section Detach

variable {t : Tree} {s : RecordId} (hnd : ∀ q, (t.children q).Nodup)
  (hs : ∀ q, s ∈ t.children q → t.parent? s = some q)

include hnd hs

theorem find?_detach (q : RecordId) :
    (t.detach s).find? q = (t.find? q).map (Record.keeping (· != s)) := by
  have hkeep : ∀ r, t.find? q = some r → t.parent? s ≠ some q → r.keeping (· != s) = r := by
    intro r hr hne
    refine Record.keeping_eq_self fun c hc => ?_
    simpa using fun heq : c = s => hne (hs q (by rw [children_of_find? hr]; exact heq ▸ hc))
  unfold detach
  split
  · next hp =>
    cases hr : t.find? q with
    | none => rfl
    | some r => simp [hkeep r hr (by simp [hp])]
  · next p hp =>
    show (t.records.modify p _).find? q = _
    rw [IdMap.find?_modify]
    split
    · next heq =>
      subst heq
      cases hr : t.records.find? q with
      | none => simp [find?, hr]
      | some r =>
          have := hnd q
          rw [children_of_find? hr] at this
          simp [find?, hr, Record.keeping, this.erase_eq_filter]
    · next hqp =>
      cases hr : t.find? q with
      | none => exact hr
      | some r =>
          have hne : t.parent? s ≠ some q := by
            rw [hp]
            exact fun heq => hqp (Option.some.inj heq).symm
          show t.find? q = _
          rw [hr, Option.map_some, hkeep r hr hne]

omit hnd hs in
theorem parent?_detach (x : RecordId) :
    (t.detach s).parent? x = if x = s then none else t.parent? x := by
  unfold detach
  split
  · next hp =>
    split
    · next heq => rw [heq, hp]
    · rfl
  · exact IdMap.find?_erase _ _ _

end Detach

/-! ## Adopting children -/

/-- A record adopts children of a tree; this is the tree then. -/
structure Gave (t : Tree) (id : RecordId) (gone : List RecordId) (t' : Tree) : Prop where
  /-- The children leave the lists they stood in. -/
  find? : ∀ q, t'.find? q = (t.find? q).map (Record.keeping fun c => !gone.contains c)
  /-- Their parent is the record. -/
  parent? : ∀ x, t'.parent? x = if x ∈ gone then some id else t.parent? x

/-- The children that a new record may adopt, out of those it lists. -/
def adoptees (t : Tree) (parent : RecordId) (listed : List RecordId) : List RecordId :=
  (listed.filter (t.adoptable parent)).eraseDups

theorem Linked.adoptable_iff {t : Tree} (h : t.Linked) {parent c : RecordId} :
    t.adoptable parent c = true ↔ c ≠ rootId ∧ t.contains c = true ∧ ¬ t.Reaches c parent := by
  simp only [adoptable, Bool.and_eq_true, bne_iff_ne, Bool.not_eq_true', and_assoc,
    h.isWithin_eq_false_iff]

theorem Gave.none (t : Tree) (id : RecordId) : t.Gave id [] t where
  find? q := by
    cases t.find? q with
    | none => rfl
    | some r => simp [Record.keeping_eq_self]
  parent? x := by simp

namespace Gave

variable {t t' : Tree} {id : RecordId} {gone : List RecordId} (hg : t.Gave id gone t')

include hg

theorem contains_eq (x : RecordId) : t'.contains x = t.contains x := by
  show (t'.find? x).isSome = (t.find? x).isSome
  rw [hg.find?, Option.isSome_map]

theorem children_eq (q : RecordId) :
    t'.children q = (t.children q).filter fun c => !gone.contains c := by
  cases hq : t.find? q with
  | none => rw [children_of_find?_none hq, children_of_find?_none (by rw [hg.find?, hq]; rfl)]; rfl
  | some r =>
      rw [children_of_find? hq, children_of_find? (r := r.keeping fun c => !gone.contains c)
        (by rw [hg.find?, hq]; rfl)]
      rfl

end Gave

/-- Ways up are the same in an index that agrees on all records above. -/
theorem climbs_congr {m m' : IdMap RecordId} {x : RecordId}
    (hm : ∀ k y, Climbs m k x y → m'.find? y = m.find? y) {n : Nat} {a : RecordId} :
    Climbs m' n x a ↔ Climbs m n x a := by
  induction n generalizing x with
  | zero => constructor <;> (rintro ⟨⟩; exact .here)
  | succ n ih =>
      have hx := hm 0 x .here
      constructor
      · intro h
        cases h with
        | up hp h =>
            rw [hx] at hp
            exact .up hp ((ih fun k y hy => hm (k + 1) y (.up hp hy)).1 h)
      · intro h
        cases h with
        | up hp h => exact .up (hx.trans hp) ((ih fun k y hy => hm (k + 1) y (.up hp hy)).2 h)

section Adopt

variable {t : Tree} (h : t.Linked) {parent id : RecordId}

include h

/-- Whether a record may be adopted does not change while others are. -/
theorem Gave.adoptable_eq {gone : List RecordId} {t' : Tree} (hg : t.Gave id gone t')
    (hgone : ∀ a ∈ gone, t.adoptable parent a = true) (c : RecordId) :
    t'.adoptable parent c = t.adoptable parent c := by
  -- Nothing on the way up from the parent has been adopted.
  have hup : ∀ k y, Climbs t.parents k parent y → t'.parents.find? y = t.parents.find? y := by
    intro k y hy
    have hny : y ∉ gone := fun hmem =>
      (h.adoptable_iff.1 (hgone y hmem)).2.2 (h.climbs_iff.1 ⟨k, hy⟩)
    exact (hg.parent? y).trans (if_neg hny)
  have hiff : ∀ n a, Climbs t'.parents n parent a ↔ Climbs t.parents n parent a :=
    fun n a => climbs_congr hup
  have hground : Grounded t'.parents parent := by
    obtain ⟨n, e, hn, he⟩ := h.grounded parent
    exact ⟨n, e, (hiff n e).2 hn, (hup n e hn).trans he⟩
  have hwithin : t'.isWithin parent c = t.isWithin parent c := by
    rw [Bool.eq_iff_iff]
    unfold isWithin
    rw [getD_meets? hground, getD_meets? (h.grounded parent)]
    exact exists_congr fun n => hiff n c
  simp only [adoptable, hwithin, hg.contains_eq]

/-- One more child is adopted. -/
theorem Gave.snoc {gone : List RecordId} {t' : Tree} (hg : t.Gave id gone t') {c : RecordId}
    (hc : c ∉ gone) :
    t.Gave id (gone ++ [c])
      { t'.detach c with parents := (t'.detach c).parents.insert c id } := by
  have hnd : ∀ q, (t'.children q).Nodup := fun q => by
    rw [hg.children_eq]
    exact (h.nodup q).filter _
  have hs : ∀ q, c ∈ t'.children q → t'.parent? c = some q := by
    intro q hq
    rw [hg.children_eq] at hq
    rw [hg.parent?, if_neg hc]
    exact h.parent_iff.2 (List.mem_filter.1 hq).1
  constructor
  · intro q
    show (t'.detach c).find? q = _
    rw [find?_detach hnd hs, hg.find?, Option.map_map]
    congr 1
    funext r
    rw [Function.comp, Record.keeping_keeping]
    congr 1
    funext x
    simp [Bool.not_or]
    rfl
  · intro x
    show ((t'.detach c).parents.insert c id).find? x = _
    rw [IdMap.find?_insert]
    by_cases hx : x = c
    · simp [hx]
    · rw [if_neg hx]
      show (t'.detach c).parent? x = _
      rw [parent?_detach, if_neg hx, hg.parent?]
      simp [hx]

variable (parent) in
/-- What adopting does, from a tree in which some children have been adopted already. -/
theorem adopt_spec (listed : List RecordId) {gone : List RecordId} {t' : Tree}
    (hg : t.Gave id gone t') (hgone : ∀ a ∈ gone, t.adoptable parent a = true) :
    t.Gave id (adopt parent id listed gone t').2 (adopt parent id listed gone t').1 ∧
      (adopt parent id listed gone t').2 =
        gone ++ (listed.filter fun c => t.adoptable parent c && !gone.contains c).eraseDups := by
  induction listed generalizing gone t' with
  | nil => simpa [adopt] using hg
  | cons c rest ih =>
      rw [adopt, hg.adoptable_eq h hgone]
      cases hc : t.adoptable parent c && !gone.contains c with
      | false =>
          simp only [List.filter_cons, hc, Bool.false_eq_true, if_false]
          exact ih hg hgone
      | true =>
          obtain ⟨hok, hnew⟩ : t.adoptable parent c = true ∧ c ∉ gone := by simpa using hc
          obtain ⟨hg', heq⟩ := ih (hg.snoc h hnew) (by simpa [or_imp, forall_and, hok] using hgone)
          refine ⟨hg', heq.trans ?_⟩
          simp only [List.filter_cons, hc, if_true, List.eraseDups_cons, List.filter_filter,
            List.append_assoc, List.singleton_append]
          congr 3
          refine List.filter_congr fun x _ => ?_
          rw [Bool.eq_iff_iff]
          simp
          tauto

end Adopt

end Tree

end ColumnTree.Outline
