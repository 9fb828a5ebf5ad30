/-
# The way up

`Climbs m n x y` says that `n` steps in an index of parents lead up from `x` to `y`.  The index is a
function, so that a way up is determined by where it begins; if it ends at all, then no record
stands on it twice, and it has at most as many steps as the index has entries.  This is why the walk
`meets?` has enough steps.
-/
import ColumnTree.Outline.Tree
import Mathlib.Data.List.Nodup
import Mathlib.Data.List.Perm.Subperm

namespace ColumnTree.Outline

/-! ## Entries of a map -/

namespace IdMap

variable {α : Type}

theorem mem_keys_iff (m : IdMap α) {id : RecordId} : id ∈ m.keys ↔ ∃ a, m.find? id = some a := by
  simp only [keys, List.mem_map]
  constructor
  · rintro ⟨e, he, rfl⟩
    exact ⟨e.2, m.find?_eq_some_iff.2 he⟩
  · rintro ⟨a, ha⟩
    exact ⟨(id, a), m.find?_eq_some_iff.1 ha, rfl⟩

theorem length_keys (m : IdMap α) : m.keys.length = m.size :=
  List.length_map ..

theorem nodup_keys (m : IdMap α) : m.keys.Nodup :=
  List.pairwise_map.2 (m.sorted.imp fun {_ _} h => UInt64.ne_of_lt h)

theorem contains_iff (m : IdMap α) {id : RecordId} :
    m.contains id = true ↔ ∃ a, m.find? id = some a :=
  Option.isSome_iff_exists

theorem contains_eq_false_iff (m : IdMap α) {id : RecordId} :
    m.contains id = false ↔ m.find? id = none := by
  simp [contains]

end IdMap

/-! ## Steps up -/

/-- `n` steps up from one record lead to another. -/
inductive Climbs (m : IdMap RecordId) : Nat → RecordId → RecordId → Prop where
  | here {x : RecordId} : Climbs m 0 x x
  | up {n : Nat} {x p y : RecordId} : m.find? x = some p → Climbs m n p y → Climbs m (n + 1) x y

namespace Climbs

variable {m : IdMap RecordId}

theorem trans {n k : Nat} {x y z : RecordId} (h : Climbs m n x y) (h' : Climbs m k y z) :
    Climbs m (n + k) x z := by
  induction h with
  | here => simpa using h'
  | up hp _ ih => rw [Nat.add_right_comm]; exact .up hp (ih h')

/-- The ways up from one record are parts of one way. -/
theorem tail {n k : Nat} {x y t : RecordId} (h : Climbs m n x y) (h' : Climbs m k x t)
    (ht : m.find? t = none) : ∃ j, n + j = k ∧ Climbs m j y t := by
  induction h generalizing k with
  | here => exact ⟨k, Nat.zero_add k, h'⟩
  | up hp _ ih =>
      cases h' with
      | here => rw [ht] at hp; cases hp
      | up hp' h' =>
          obtain rfl := Option.some.inj (hp.symm.trans hp')
          obtain ⟨j, hj, hy⟩ := ih h'
          exact ⟨j, by omega, hy⟩

/-- A record with an end of its way up has one height only. -/
theorem height_unique {n k : Nat} {x t : RecordId} (h : Climbs m n x t) (h' : Climbs m k x t)
    (ht : m.find? t = none) : n = k := by
  obtain ⟨j, hj, hy⟩ := h.tail h' ht
  cases hy with
  | here => omega
  | up hp _ => rw [ht] at hp; cases hp

/-- The records on a way up that ends, all but the last. -/
theorem exists_path {n : Nat} {x t : RecordId} (h : Climbs m n x t) (ht : m.find? t = none) :
    ∃ l : List RecordId, l.length = n ∧ l.Nodup ∧
      ∀ y ∈ l, ∃ j, 1 ≤ j ∧ j ≤ n ∧ Climbs m j y t := by
  induction h with
  | here => exact ⟨[], rfl, List.nodup_nil, by simp⟩
  | @up n x p t hp hrest ih =>
      obtain ⟨l, hlen, hnd, hmem⟩ := ih ht
      have hx : Climbs m (n + 1) x t := .up hp hrest
      refine ⟨x :: l, by simp [hlen], List.nodup_cons.2 ⟨?_, hnd⟩, ?_⟩
      · intro hxl
        obtain ⟨j, -, hj, hc⟩ := hmem x hxl
        have := hc.height_unique hx ht
        omega
      · intro y hy
        rcases List.mem_cons.1 hy with rfl | hy
        · exact ⟨n + 1, by omega, by omega, hx⟩
        · obtain ⟨j, h₁, h₂, hc⟩ := hmem y hy
          exact ⟨j, h₁, by omega, hc⟩

/-- A way up that ends has no more steps than there are records that have a parent. -/
theorem length_le {n : Nat} {x t : RecordId} (h : Climbs m n x t) (ht : m.find? t = none)
    {l : List RecordId} (hl : ∀ y p, m.find? y = some p → y ∈ l) : n ≤ l.length := by
  obtain ⟨path, rfl, hnd, hmem⟩ := h.exists_path ht
  refine (hnd.subperm fun y hy => ?_).length_le
  obtain ⟨j, h₁, -, hc⟩ := hmem y hy
  cases hc with
  | here => omega
  | up hp _ => exact hl _ _ hp

theorem length_le_size {n : Nat} {x t : RecordId} (h : Climbs m n x t) (ht : m.find? t = none) :
    n ≤ m.size := by
  rw [← m.length_keys]
  exact h.length_le ht fun y p hy => m.mem_keys_iff.2 ⟨p, hy⟩

end Climbs

/-! ## The walks -/

/-- A record from which the way up ends. -/
def Grounded (m : IdMap RecordId) (x : RecordId) : Prop :=
  ∃ n t, Climbs m n x t ∧ m.find? t = none

namespace Tree

variable {m : IdMap RecordId}

/-- With more steps than the way up has, the walk finds out whether it passes a record. -/
theorem meets?_eq {n fuel : Nat} {x t a : RecordId} (h : Climbs m n x t) (ht : m.find? t = none)
    (hf : n < fuel) : ∃ b, meets? m a fuel x = some b ∧ (b = true ↔ ∃ k, Climbs m k x a) := by
  induction fuel generalizing n x with
  | zero => omega
  | succ fuel ih =>
      by_cases hx : x = a
      · subst hx
        exact ⟨true, by simp [meets?], by simp [show ∃ k, Climbs m k x x from ⟨0, .here⟩]⟩
      · cases h with
        | here =>
            refine ⟨false, by simp [meets?, hx, ht], by simp, ?_⟩
            rintro ⟨k, hk⟩
            cases hk with
            | here => exact absurd rfl hx
            | up hp _ => rw [ht] at hp; cases hp
        | up hp hrest =>
            obtain ⟨b, hb, hiff⟩ := ih hrest (by omega)
            refine ⟨b, by simp [meets?, hx, hp, hb], hiff.trans ⟨?_, ?_⟩⟩
            · rintro ⟨k, hk⟩
              exact ⟨k + 1, .up hp hk⟩
            · rintro ⟨k, hk⟩
              cases hk with
              | here => exact absurd rfl hx
              | up hp' hk =>
                  obtain rfl := Option.some.inj (hp.symm.trans hp')
                  exact ⟨_, hk⟩

/-- On a way up that ends, the walk answers whether it passes a record. -/
theorem getD_meets? {x a : RecordId} (h : Grounded m x) :
    (meets? m a (m.size + 1) x).getD false = true ↔ ∃ k, Climbs m k x a := by
  obtain ⟨n, t, hc, ht⟩ := h
  obtain ⟨b, hb, hiff⟩ := meets?_eq (a := a) hc ht (Nat.lt_succ_of_le (hc.length_le_size ht))
  rw [hb]
  exact hiff

/-- What the walk finds is the end of the way up. -/
theorem climbs_of_top? {fuel : Nat} {x t : RecordId} (h : top? m fuel x = some t) :
    m.find? t = none ∧ ∃ n, Climbs m n x t := by
  induction fuel generalizing x with
  | zero => simp [top?] at h
  | succ fuel ih =>
      simp only [top?] at h
      split at h
      · next hx =>
        obtain rfl := Option.some.inj h
        exact ⟨hx, 0, .here⟩
      · next p hp =>
        obtain ⟨ht, n, hn⟩ := ih h
        exact ⟨ht, n + 1, .up hp hn⟩

end Tree

end ColumnTree.Outline
