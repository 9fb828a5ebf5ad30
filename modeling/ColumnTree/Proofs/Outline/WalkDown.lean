/-
# The walk down

`countDown` keeps no account of the records that it has come by.  It comes to its end all the same, and
is not given up, where every child is listed once and the root in no list (`Branching`): then a record
that it takes off the queue has never been in the queue before (`Walk`), and it takes off no more
records than there are.  What it has taken off at the end is just what can be reached from the root
(`Branching.exists_countDown`).
-/
import ColumnTree.Outline.Load
import ColumnTree.Proofs.Outline.WellFormed

namespace ColumnTree.Outline

namespace Tree

/-- Lists of children in which the root never stands and each other record at most once. -/
structure Branching (t : Tree) : Prop where
  /-- Children exist. -/
  listed : ∀ {p c}, c ∈ t.children p → t.contains c = true
  /-- The root is nobody's child. -/
  root_unlisted : ∀ p, rootId ∉ t.children p
  /-- No child is listed twice by one record. -/
  nodup : ∀ p, (t.children p).Nodup
  /-- No child is listed by two records. -/
  unique : ∀ {p q c}, c ∈ t.children p → c ∈ t.children q → p = q

theorem Linked.branching {t : Tree} (h : t.Linked) : t.Branching :=
  ⟨h.listed, h.root_unlisted, h.nodup, h.parent_unique⟩

theorem countDown_nil (records : IdMap Record) (seen : Nat) :
    countDown records [] seen = some seen := by
  rw [countDown]

theorem countDown_cons (t : Tree) (id : RecordId) (rest : List RecordId) {seen : Nat}
    (h : seen < t.records.size) :
    countDown t.records (id :: rest) seen = countDown t.records (rest ++ t.children id) (seen + 1) := by
  rw [countDown, if_pos h]
  rfl

/-- A walk down that is followed to its end, however many records it takes off. -/
inductive Ends (t : Tree) : List RecordId → Nat → Nat → Prop where
  | nil {seen : Nat} : Ends t [] seen seen
  | cons {id : RecordId} {rest : List RecordId} {seen n : Nat} :
      Ends t (rest ++ t.children id) (seen + 1) n → Ends t (id :: rest) seen n

/-- What is counted is a walk that was not given up. -/
theorem ends_of_countDown {t : Tree} {queue : List RecordId} {seen n : Nat}
    (h : countDown t.records queue seen = some n) : Ends t queue seen n := by
  cases queue with
  | nil =>
      rw [countDown_nil] at h
      obtain rfl := Option.some.inj h
      exact .nil
  | cons id rest =>
      by_cases hlt : seen < t.records.size
      · rw [countDown_cons t id rest hlt] at h
        exact .cons (ends_of_countDown h)
      · rw [countDown, if_neg hlt] at h
        cases h
termination_by t.records.size - seen

/-- The state of a walk down: the records taken off the queue so far, and those still in it. -/
structure Walk (t : Tree) (passed queue : List RecordId) : Prop where
  nodup : (passed ++ queue).Nodup
  root_mem : rootId ∈ passed ++ queue
  contains : ∀ x ∈ passed ++ queue, t.contains x = true
  reached : ∀ x ∈ passed ++ queue, t.Reaches rootId x
  /-- The children of what has been taken off are known. -/
  closed : ∀ p ∈ passed, ∀ c ∈ t.children p, c ∈ passed ++ queue
  /-- What is known but the root became known as a child of what has been taken off. -/
  parent : ∀ x ∈ passed ++ queue, x ≠ rootId → ∃ p ∈ passed, x ∈ t.children p

namespace Walk

variable {t : Tree} {passed queue rest : List RecordId} {id : RecordId}

theorem start (hroot : t.contains rootId = true) : Walk t [] [rootId] := by
  refine ⟨by simp, by simp, ?_, ?_, by simp, ?_⟩
  · intro x hx
    rwa [List.mem_singleton.1 hx]
  · intro x hx
    rw [List.mem_singleton.1 hx]
    exact .refl
  · intro x hx hne
    exact absurd (List.mem_singleton.1 hx) hne

/-- The children of the record at the front are new to the walk. -/
theorem not_mem_of_child (h : Walk t passed (id :: rest)) (hb : t.Branching) {c : RecordId}
    (hc : c ∈ t.children id) : c ∉ passed ++ id :: rest := by
  intro hmem
  obtain ⟨p, hp, hcp⟩ := h.parent c hmem fun heq => hb.root_unlisted id (heq ▸ hc)
  obtain rfl : p = id := hb.unique hcp hc
  have hdisjoint := (List.nodup_append.1 h.nodup).2.2
  exact hdisjoint p hp p (List.mem_cons_self ..) rfl

theorem step (h : Walk t passed (id :: rest)) (hb : t.Branching) :
    Walk t (passed ++ [id]) (rest ++ t.children id) := by
  have hlist : passed ++ [id] ++ (rest ++ t.children id) =
      passed ++ id :: rest ++ t.children id := by simp
  have hid : id ∈ passed ++ id :: rest := by simp
  constructor
  · rw [hlist]
    refine List.nodup_append.2 ⟨h.nodup, hb.nodup id, fun x hx c hc heq => ?_⟩
    exact h.not_mem_of_child hb hc (heq ▸ hx)
  · rw [hlist]
    exact List.mem_append_left _ h.root_mem
  · rw [hlist]
    intro x hx
    rcases List.mem_append.1 hx with hx | hx
    · exact h.contains x hx
    · exact hb.listed hx
  · rw [hlist]
    intro x hx
    rcases List.mem_append.1 hx with hx | hx
    · exact h.reached x hx
    · exact .tail (h.reached id hid) hx
  · rw [hlist]
    intro p hp c hc
    rcases List.mem_append.1 hp with hp | hp
    · exact List.mem_append_left _ (h.closed p hp c hc)
    · rw [List.mem_singleton.1 hp] at hc
      exact List.mem_append_right _ hc
  · rw [hlist]
    intro x hx hne
    rcases List.mem_append.1 hx with hx | hx
    · obtain ⟨p, hp, hxp⟩ := h.parent x hx hne
      exact ⟨p, List.mem_append_left _ hp, hxp⟩
    · exact ⟨id, by simp, hx⟩

/-- No more records are known than there are. -/
theorem length_le (h : Walk t passed queue) : (passed ++ queue).length ≤ t.size := by
  have hsub : passed ++ queue ⊆ t.records.keys := fun x hx =>
    t.records.mem_keys_iff.2 (contains_iff.1 (h.contains x hx))
  have := (h.nodup.subperm hsub).length_le
  rwa [t.records.length_keys] at this

/-- The walk ends, and has then taken off all that it counted. -/
theorem exists_countDown {t : Tree} {passed queue : List RecordId} (h : Walk t passed queue)
    (hb : t.Branching) :
    ∃ all, countDown t.records queue passed.length = some all.length ∧ Walk t all [] := by
  cases queue with
  | nil => exact ⟨passed, countDown_nil _ _, h⟩
  | cons id rest =>
      have hlt : passed.length < t.size := by
        have := h.length_le
        rw [List.length_append, List.length_cons] at this
        omega
      obtain ⟨all, hcount, hall⟩ := exists_countDown (h.step hb) hb
      refine ⟨all, ?_, hall⟩
      rw [countDown_cons t id rest hlt, ← hcount, List.length_append, List.length_singleton]
termination_by t.size - passed.length
decreasing_by
  rw [List.length_append, List.length_singleton]
  omega

/-- At the end all that can be reached has been taken off. -/
theorem mem_iff (h : Walk t passed []) {x : RecordId} : x ∈ passed ↔ t.Reaches rootId x := by
  have hall : passed ++ [] = passed := List.append_nil _
  constructor
  · intro hx
    exact h.reached x (hall.symm ▸ hx)
  · intro hr
    induction hr with
    | refl => exact hall ▸ h.root_mem
    | tail _ hl ih => exact hall ▸ h.closed _ ih _ hl

end Walk

/-- The walk down from the root ends, and it counts all records exactly if all can be reached. -/
theorem Branching.exists_countDown {t : Tree} (h : t.Branching)
    (hroot : t.contains rootId = true) : ∃ n, countDown t.records [rootId] 0 = some n ∧
      (n = t.size ↔ ∀ x, t.contains x = true → t.Reaches rootId x) := by
  obtain ⟨all, hcount, hall⟩ := (Walk.start hroot).exists_countDown h
  refine ⟨all.length, hcount, ?_⟩
  have hnodup : all.Nodup := by simpa using hall.nodup
  have hkeys : ∀ x, x ∈ t.records.keys ↔ t.contains x = true := fun x =>
    t.records.mem_keys_iff.trans contains_iff.symm
  have hsub : all ⊆ t.records.keys := fun x hx =>
    (hkeys x).2 (hall.contains x (by simpa using hx))
  rw [size, ← t.records.length_keys]
  constructor
  · intro hlen x hx
    have hperm := (hnodup.subperm hsub).perm_of_length_le (Nat.le_of_eq hlen.symm)
    exact hall.mem_iff.1 (hperm.mem_iff.2 ((hkeys x).2 hx))
  · intro hreach
    have hsub' : t.records.keys ⊆ all := fun x hx => hall.mem_iff.2 (hreach x ((hkeys x).1 hx))
    exact Nat.le_antisymm (hnodup.subperm hsub).length_le
      (t.records.nodup_keys.subperm hsub').length_le

end Tree

end ColumnTree.Outline
