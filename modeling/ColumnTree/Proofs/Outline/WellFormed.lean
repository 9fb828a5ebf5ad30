/-
# Well-formed trees

`Linked` says that the lists of children make one tree below the root, and that the index of
parents is the one that these lists determine.  `WellFormed` adds what the records themselves have
to keep to: each stands under its own number, and the root alone is of kind root.

In a linked tree the walk of `isWithin` answers exactly whether one record can be reached from
another through lists of children (`isWithin_iff`), for records that do not exist too.
-/
import ColumnTree.Proofs.Outline.Climb
import Mathlib.Logic.Relation

namespace ColumnTree.Outline

namespace Tree

/-- One record lists another among its children. -/
def Lists (t : Tree) (p c : RecordId) : Prop :=
  c ∈ t.children p

/-- A record is reached from another through lists of children; each reaches itself. -/
def Reaches (t : Tree) : RecordId → RecordId → Prop :=
  Relation.ReflTransGen t.Lists

/-- The lists of children make one tree below the root, and the index of parents agrees. -/
structure Linked (t : Tree) : Prop where
  /-- There is a root. -/
  root_mem : t.contains rootId = true
  /-- The root is nobody's child. -/
  root_unlisted : ∀ p, rootId ∉ t.children p
  /-- Children exist. -/
  listed : ∀ {p c}, c ∈ t.children p → t.contains c = true
  /-- No child is listed twice by one record. -/
  nodup : ∀ p, (t.children p).Nodup
  /-- The index holds the links from children to parents, and no others. -/
  parent_iff : ∀ {c p}, t.parent? c = some p ↔ c ∈ t.children p
  /-- Every record is below the root. -/
  reached : ∀ {x}, t.contains x = true → t.Reaches rootId x

/-- A tree that an editor may hold. -/
structure WellFormed (t : Tree) : Prop extends Linked t where
  /-- Records stand under their own numbers. -/
  named : ∀ {id r}, t.find? id = some r → r.id = id
  /-- The root is of kind root, and no other record is. -/
  kind_iff : ∀ {id r}, t.find? id = some r → (r.kind = .root ↔ id = rootId)

/-! ## Records and their children -/

theorem contains_iff {t : Tree} {x : RecordId} : t.contains x = true ↔ ∃ r, t.find? x = some r :=
  t.records.contains_iff

theorem contains_eq_false_iff {t : Tree} {x : RecordId} :
    t.contains x = false ↔ t.find? x = none :=
  t.records.contains_eq_false_iff

theorem children_of_find? {t : Tree} {x : RecordId} {r : Record} (h : t.find? x = some r) :
    t.children x = r.children := by
  simp [children, h]

theorem children_of_find?_none {t : Tree} {x : RecordId} (h : t.find? x = none) :
    t.children x = [] := by
  simp [children, h]

/-- Whoever lists a child exists. -/
theorem contains_of_mem_children {t : Tree} {p c : RecordId} (h : c ∈ t.children p) :
    t.contains p = true := by
  cases hp : t.find? p with
  | none => simp [children_of_find?_none hp] at h
  | some r => exact contains_iff.2 ⟨r, hp⟩

/-- The ways up in an index that agrees with the lists of children are the ways down backwards. -/
theorem climbs_iff_reaches {t : Tree} (hparent : ∀ {c p}, t.parent? c = some p ↔ c ∈ t.children p)
    {x a : RecordId} : (∃ n, Climbs t.parents n x a) ↔ t.Reaches a x := by
  constructor
  · rintro ⟨n, hn⟩
    induction hn with
    | here => exact .refl
    | up hp _ ih => exact .tail ih (hparent.1 hp)
  · intro hr
    induction hr with
    | refl => exact ⟨0, .here⟩
    | tail _ hl ih =>
        obtain ⟨n, hn⟩ := ih
        exact ⟨n + 1, .up (hparent.2 hl) hn⟩

/-! ## Linked trees -/

namespace Linked

variable {t : Tree} (h : t.Linked)

include h

theorem climbs_iff {x a : RecordId} : (∃ n, Climbs t.parents n x a) ↔ t.Reaches a x :=
  climbs_iff_reaches h.parent_iff

theorem parent?_root : t.parent? rootId = none := by
  cases hp : t.parent? rootId with
  | none => rfl
  | some p => exact absurd (h.parent_iff.1 hp) (h.root_unlisted p)

/-- A record that does not exist has no parent. -/
theorem parent?_eq_none {x : RecordId} (hx : t.contains x = false) : t.parent? x = none := by
  cases hp : t.parent? x with
  | none => rfl
  | some p => simp [h.listed (h.parent_iff.1 hp)] at hx

theorem exists_climb {x : RecordId} (hx : t.contains x = true) :
    ∃ n, Climbs t.parents n x rootId :=
  h.climbs_iff.2 (h.reached hx)

/-- Every way up ends. -/
theorem grounded (x : RecordId) : Grounded t.parents x := by
  cases hx : t.contains x with
  | true =>
      obtain ⟨n, hn⟩ := h.exists_climb hx
      exact ⟨n, rootId, hn, h.parent?_root⟩
  | false => exact ⟨0, x, .here, h.parent?_eq_none hx⟩

theorem isWithin_iff {x a : RecordId} : t.isWithin x a = true ↔ t.Reaches a x :=
  (getD_meets? (h.grounded x)).trans h.climbs_iff

theorem isWithin_eq_false_iff {x a : RecordId} : t.isWithin x a = false ↔ ¬ t.Reaches a x := by
  rw [← h.isWithin_iff, Bool.not_eq_true]

/-- Every record but the root has a parent. -/
theorem exists_parent {x : RecordId} (hx : t.contains x = true) (hne : x ≠ rootId) :
    ∃ p, t.parent? x = some p := by
  obtain ⟨n, hn⟩ := h.exists_climb hx
  cases hn with
  | here => exact absurd rfl hne
  | up hp _ => exact ⟨_, hp⟩

theorem parent_unique {c p q : RecordId} (hp : c ∈ t.children p) (hq : c ∈ t.children q) :
    p = q :=
  Option.some.inj ((h.parent_iff.2 hp).symm.trans (h.parent_iff.2 hq))

/-- No record is below its child. -/
theorem not_reaches_of_mem {p c : RecordId} (hc : c ∈ t.children p) : ¬ t.Reaches c p := by
  intro hr
  obtain ⟨k, hk⟩ := h.climbs_iff.2 hr
  obtain ⟨n, e, hn, he⟩ := h.grounded c
  -- The way up from `c` would pass `c` again and so never end.
  have hloop : Climbs t.parents (k + 1) c c := .up (h.parent_iff.2 hc) hk
  have := hn.height_unique (hloop.trans hn) he
  omega

theorem ne_of_mem {p c : RecordId} (hc : c ∈ t.children p) : c ≠ p := by
  rintro rfl
  exact h.not_reaches_of_mem hc .refl

/-- Every record but the root stands once in one list of children. -/
theorem stands_once {x : RecordId} (hx : t.contains x = true) (hne : x ≠ rootId) :
    ∃ p, ∀ q, (t.children q).count x = if q = p then 1 else 0 := by
  obtain ⟨p, hp⟩ := h.exists_parent hx hne
  have hmem := h.parent_iff.1 hp
  refine ⟨p, fun q => ?_⟩
  split
  · next heq => rw [heq]; exact List.count_eq_one_of_mem (h.nodup p) hmem
  · next hqp =>
    exact List.count_eq_zero_of_not_mem fun hq => hqp (h.parent_unique hq hmem)

end Linked

/-- Trees with the same records, lists of children and parents are linked alike. -/
theorem Linked.congr {t t' : Tree} (h : t.Linked) (hcontains : ∀ x, t'.contains x = t.contains x)
    (hchildren : ∀ q, t'.children q = t.children q) (hparents : t'.parents = t.parents) :
    t'.Linked := by
  have hlists : t'.Lists = t.Lists := by
    funext q c
    simp only [Lists, hchildren]
  refine ⟨?_, ?_, ?_, ?_, ?_, ?_⟩
  · rw [hcontains]; exact h.root_mem
  · intro q; rw [hchildren]; exact h.root_unlisted q
  · intro q c hc; rw [hcontains]; rw [hchildren] at hc; exact h.listed hc
  · intro q; rw [hchildren]; exact h.nodup q
  · intro c q; rw [hchildren, parent?, hparents]; exact h.parent_iff
  · intro x hx; rw [Reaches, hlists]; rw [hcontains] at hx; exact h.reached hx

/-- A linked tree whose records are new ones, or old ones that may have changed in other respects
than their number and being of kind root. -/
theorem WellFormed.of_alike {t t' : Tree} (h : t.WellFormed) (h' : t'.Linked)
    (halike : ∀ {q rq}, t'.find? q = some rq →
      (rq.id = q ∧ q ≠ rootId ∧ rq.kind ≠ .root) ∨
        ∃ r, t.find? q = some r ∧ rq.id = r.id ∧ (rq.kind = .root ↔ r.kind = .root)) :
    t'.WellFormed := by
  refine ⟨h', ?_, ?_⟩
  · intro q rq hrq
    rcases halike hrq with ⟨hid, -, -⟩ | ⟨r, hr, hid, -⟩
    · exact hid
    · exact hid.trans (h.named hr)
  · intro q rq hrq
    rcases halike hrq with ⟨-, hq, hk⟩ | ⟨r, hr, -, hk⟩
    · exact iff_of_false hk hq
    · exact hk.trans (h.kind_iff hr)

/-! ## Rewiring

A tree is rewired when some records are hung up elsewhere.  If each of them is linked again to a
place outside all that was below them, then everything stays within reach. -/

theorem reaches_of_avoids {t t' : Tree} {moved : RecordId → Prop} {a x : RecordId}
    (hkeep : ∀ p c, t.Lists p c → ¬ moved c → t'.Lists p c)
    (hr : t.Reaches a x) (hx : ∀ m, moved m → ¬ t.Reaches m x) : t'.Reaches a x := by
  induction hr with
  | refl => exact .refl
  | @tail p c hp hl ih =>
      have hc : ¬ moved c := fun hm => hx c hm .refl
      exact .tail (ih fun m hm hmp => hx m hm (.tail hmp hl)) (hkeep p c hl hc)

theorem reaches_of_rewired {t t' : Tree} (moved : RecordId → Prop) {a x : RecordId}
    (anchor : RecordId)
    (hkeep : ∀ p c, t.Lists p c → ¬ moved c → t'.Lists p c)
    (hanchor : t.Reaches a anchor) (hfree : ∀ m, moved m → ¬ t.Reaches m anchor)
    (hlink : ∀ m, moved m → t'.Reaches anchor m) (hr : t.Reaches a x) : t'.Reaches a x := by
  have hanchor' := reaches_of_avoids hkeep hanchor hfree
  induction hr with
  | refl => exact .refl
  | @tail p c _ hl ih =>
      by_cases hc : moved c
      · exact hanchor'.trans (hlink c hc)
      · exact .tail ih (hkeep p c hl hc)

end Tree

end ColumnTree.Outline
