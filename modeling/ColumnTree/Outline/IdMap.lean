/-
# Maps from record numbers

A map is the list of its entries in the strict order of their numbers.  So two maps that answer
every look-up alike are equal (`ext_find?`), and each operation is known by what `find?` says after
it.
-/
import ColumnTree.RecordId

namespace ColumnTree.Outline

/-- A map from record numbers. -/
structure IdMap (α : Type) where
  /-- Numbers and their values. -/
  entries : List (RecordId × α)
  /-- Numbers are in strict order. -/
  sorted : entries.Pairwise fun a b => a.1 < b.1

namespace IdMap

variable {α : Type}

/-! ## Building -/

/-- The map without entries. -/
def empty : IdMap α := ⟨[], .nil⟩

/-- Puts a value in its place; it replaces one of the same number. -/
def place (id : RecordId) (a : α) : List (RecordId × α) → List (RecordId × α)
  | [] => [(id, a)]
  | e :: rest =>
    if id < e.1 then (id, a) :: e :: rest
    else if id = e.1 then (id, a) :: rest
    else e :: place id a rest

theorem mem_place {id : RecordId} {a : α} {e : RecordId × α} {l : List (RecordId × α)}
    (h : e ∈ place id a l) : e = (id, a) ∨ e ∈ l := by
  induction l with
  | nil => simpa [place] using h
  | cons g rest ih =>
    simp only [place] at h
    split at h
    · simpa using h
    · split at h
      · rcases List.mem_cons.1 h with h | h <;> simp [h]
      · rcases List.mem_cons.1 h with h | h
        · simp [h]
        · rcases ih h with h | h <;> simp [h]

theorem lt_of_not_lt {a b : RecordId} (h : ¬ a < b) (hne : ¬ a = b) : b < a :=
  UInt64.lt_of_le_of_ne (UInt64.not_lt.1 h) fun heq => hne heq.symm

theorem sorted_place (id : RecordId) (a : α) {l : List (RecordId × α)}
    (hl : l.Pairwise fun a b => a.1 < b.1) :
    (place id a l).Pairwise fun a b => a.1 < b.1 := by
  induction l with
  | nil => simp [place]
  | cons g rest ih =>
    obtain ⟨hg, hrest⟩ := List.pairwise_cons.1 hl
    simp only [place]
    split
    · next hlt =>
      refine List.pairwise_cons.2 ⟨fun e he => ?_, hl⟩
      rcases List.mem_cons.1 he with rfl | he
      · exact hlt
      · exact UInt64.lt_trans hlt (hg e he)
    · next hlt =>
      split
      · next heq => exact List.pairwise_cons.2 ⟨fun e he => heq ▸ hg e he, hrest⟩
      · next hne =>
        refine List.pairwise_cons.2 ⟨fun e he => ?_, ih hrest⟩
        rcases mem_place he with rfl | he
        · exact lt_of_not_lt hlt hne
        · exact hg e he

/-- The map with a value at a number. -/
def insert (m : IdMap α) (id : RecordId) (a : α) : IdMap α :=
  ⟨place id a m.entries, sorted_place id a m.sorted⟩

/-- The map without a number. -/
def erase (m : IdMap α) (id : RecordId) : IdMap α :=
  ⟨m.entries.filter fun e => e.1 != id, m.sorted.filter _⟩

/-- The entries, with the value at a number changed. -/
def change (id : RecordId) (f : α → α) (e : RecordId × α) : RecordId × α :=
  if e.1 = id then (e.1, f e.2) else e

@[simp] theorem change_fst (id : RecordId) (f : α → α) (e : RecordId × α) :
    (change id f e).1 = e.1 := by
  unfold change
  split <;> rfl

/-- The map with the value at a number changed, if there is one. -/
def modify (m : IdMap α) (id : RecordId) (f : α → α) : IdMap α :=
  ⟨m.entries.map (change id f), m.sorted.map _ fun _ _ h => by simpa using h⟩

/-! ## Looking up -/

/-- The value at a number. -/
def find? (m : IdMap α) (id : RecordId) : Option α :=
  m.entries.lookup id

/-- Is there a value at a number? -/
def contains (m : IdMap α) (id : RecordId) : Bool :=
  (m.find? id).isSome

/-- The numbers, in order. -/
def keys (m : IdMap α) : List RecordId :=
  m.entries.map (·.1)

/-- The values, in the order of their numbers. -/
def values (m : IdMap α) : List α :=
  m.entries.map (·.2)

/-- How many values there are. -/
def size (m : IdMap α) : Nat :=
  m.entries.length

/-! ## What a look-up says -/

theorem lookup_cons_entry (id : RecordId) (e : RecordId × α) (rest : List (RecordId × α)) :
    (e :: rest).lookup id = if id = e.1 then some e.2 else rest.lookup id := by
  obtain ⟨k, a⟩ := e
  change (match id == k with
    | true => some a
    | false => rest.lookup id) = _
  by_cases h : id = k
  · simp [h]
  · simp [beq_false_of_ne h, h]

theorem lookup_place (id k : RecordId) (a : α) (l : List (RecordId × α)) :
    (place id a l).lookup k = if k = id then some a else l.lookup k := by
  induction l with
  | nil => simp [place, lookup_cons_entry]
  | cons g rest ih =>
    simp only [place]
    split
    · simp [lookup_cons_entry]
    · split
      · next heq => by_cases h : k = id <;> simp [lookup_cons_entry, h, ← heq]
      · next hne =>
        by_cases h : k = g.1
        · have hk : ¬ g.1 = id := fun heq => hne heq.symm
          simp [lookup_cons_entry, h, hk]
        · simp [lookup_cons_entry, h, ih]

@[simp] theorem find?_empty (id : RecordId) : (empty : IdMap α).find? id = none := rfl

theorem find?_insert (m : IdMap α) (id k : RecordId) (a : α) :
    (m.insert id a).find? k = if k = id then some a else m.find? k :=
  lookup_place id k a m.entries

theorem find?_erase (m : IdMap α) (id k : RecordId) :
    (m.erase id).find? k = if k = id then none else m.find? k := by
  obtain ⟨l, hl⟩ := m
  simp only [erase, find?]
  clear hl
  induction l with
  | nil => simp
  | cons e rest ih =>
    by_cases he : e.1 = id
    · by_cases h : k = id
      · simpa [he, h] using ih
      · simpa [he, h, lookup_cons_entry] using ih
    · by_cases hk : k = e.1
      · simp [he, hk, lookup_cons_entry]
      · simp [he, hk, lookup_cons_entry, ih]

theorem find?_modify (m : IdMap α) (id k : RecordId) (f : α → α) :
    (m.modify id f).find? k = if k = id then (m.find? k).map f else m.find? k := by
  obtain ⟨l, hl⟩ := m
  simp only [modify, find?]
  clear hl
  induction l with
  | nil => simp
  | cons e rest ih =>
    by_cases hk : k = e.1
    · by_cases he : e.1 = id <;> simp [change, hk, he, lookup_cons_entry]
    · simp [lookup_cons_entry, hk, ih]

theorem lookup_eq_some_iff {l : List (RecordId × α)}
    (hl : l.Pairwise fun a b => a.1 < b.1) {id : RecordId} {a : α} :
    l.lookup id = some a ↔ (id, a) ∈ l := by
  induction l with
  | nil => simp
  | cons e rest ih =>
    obtain ⟨he, hrest⟩ := List.pairwise_cons.1 hl
    by_cases h : id = e.1
    · subst h
      have hnot : (e.1, a) ∉ rest := fun hm => UInt64.lt_irrefl _ (he (e.1, a) hm)
      simp [lookup_cons_entry, hnot, Prod.ext_iff, eq_comm]
    · simp [lookup_cons_entry, h, ih hrest, Prod.ext_iff]

theorem find?_eq_some_iff (m : IdMap α) {id : RecordId} {a : α} :
    m.find? id = some a ↔ (id, a) ∈ m.entries :=
  lookup_eq_some_iff m.sorted

/-- Two lists in strict order that have the same members are equal. -/
theorem eq_of_mem_iff {l l' : List (RecordId × α)} (hl : l.Pairwise fun a b => a.1 < b.1)
    (hl' : l'.Pairwise fun a b => a.1 < b.1) (h : ∀ e, e ∈ l ↔ e ∈ l') : l = l' := by
  induction l generalizing l' with
  | nil =>
    cases l' with
    | nil => rfl
    | cons e rest => exact absurd ((h e).2 (by simp)) (by simp)
  | cons e rest ih =>
    cases l' with
    | nil => exact absurd ((h e).1 (by simp)) (by simp)
    | cons e' rest' =>
      obtain ⟨he, hrest⟩ := List.pairwise_cons.1 hl
      obtain ⟨he', hrest'⟩ := List.pairwise_cons.1 hl'
      have heq : e = e' := by
        rcases List.mem_cons.1 ((h e).1 (by simp)) with h₁ | h₁
        · exact h₁
        · rcases List.mem_cons.1 ((h e').2 (by simp)) with h₂ | h₂
          · exact h₂.symm
          · exact absurd (UInt64.lt_trans (he _ h₂) (he' _ h₁)) (UInt64.lt_irrefl _)
      subst heq
      refine congrArg _ (ih hrest hrest' fun g => ⟨fun hg => ?_, fun hg => ?_⟩)
      · rcases List.mem_cons.1 ((h g).1 (by simp [hg])) with rfl | h₁
        · exact absurd (he _ hg) (UInt64.lt_irrefl _)
        · exact h₁
      · rcases List.mem_cons.1 ((h g).2 (by simp [hg])) with rfl | h₁
        · exact absurd (he' _ hg) (UInt64.lt_irrefl _)
        · exact h₁

/-- Maps that answer every look-up alike are equal. -/
theorem ext_find? {m m' : IdMap α} (h : ∀ id, m.find? id = m'.find? id) : m = m' := by
  have he : m.entries = m'.entries :=
    eq_of_mem_iff m.sorted m'.sorted fun e => by
      rw [← find?_eq_some_iff, ← find?_eq_some_iff, h]
  cases m
  cases m'
  cases he
  rfl

end IdMap

end ColumnTree.Outline
