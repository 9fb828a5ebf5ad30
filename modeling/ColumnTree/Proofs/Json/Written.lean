/-
# What is written is read back

The text of a value is read as that value, provided that its numbers are read back one by one and that
it nests at most 127 deep (`parse?_render`).  The induction is on the value, before any text that a
number cannot go on into, since a number is followed by a comma or by a closing bracket.
-/
import ColumnTree.Proofs.Json.Numerals
import ColumnTree.Proofs.Json.Quoted
import Mathlib.Data.List.DropRight

namespace ColumnTree.Json

mutual

/-- How deep a value nests. -/
def levels : Json → Nat
  | arr items => itemLevels items + 1
  | obj fields => fieldLevels fields + 1
  | _ => 0

/-- How deep the items of an array nest. -/
def itemLevels : List Json → Nat
  | [] => 0
  | j :: rest => max (levels j) (itemLevels rest)

/-- How deep the fields of an object nest. -/
def fieldLevels : List (String × Json) → Nat
  | [] => 0
  | (_, j) :: rest => max (levels j) (fieldLevels rest)

end

mutual

/-- Are all the numbers in a value read back? -/
def Faithful : Json → Prop
  | int n => -(twoTo 63 : Int) ≤ n ∧ n < twoTo 64
  | float x => ReadsBack x
  | arr items => FaithfulItems items
  | obj fields => FaithfulFields fields
  | _ => True

/-- Are all the numbers in the items of an array read back? -/
def FaithfulItems : List Json → Prop
  | [] => True
  | j :: rest => Faithful j ∧ FaithfulItems rest

/-- Are all the numbers in the fields of an object read back? -/
def FaithfulFields : List (String × Json) → Prop
  | [] => True
  | (_, j) :: rest => Faithful j ∧ FaithfulFields rest

end

section Parts

variable (j : Json) (items : List Json) (f : String × Json) (fields : List (String × Json))

theorem levels_arr : levels (arr items) = itemLevels items + 1 := rfl

theorem levels_obj : levels (obj fields) = fieldLevels fields + 1 := rfl

theorem itemLevels_cons : itemLevels (j :: items) = max (levels j) (itemLevels items) := rfl

theorem fieldLevels_cons : fieldLevels (f :: fields) = max (levels f.2) (fieldLevels fields) := rfl

theorem faithfulItems_cons :
    FaithfulItems (j :: items) ↔ Faithful j ∧ FaithfulItems items := Iff.rfl

theorem faithfulFields_cons :
    FaithfulFields (f :: fields) ↔ Faithful f.2 ∧ FaithfulFields fields := Iff.rfl

end Parts

theorem levels_arr_le_iff {items : List Json} {n : Nat} :
    levels (arr items) ≤ n + 1 ↔ ∀ j ∈ items, levels j ≤ n := by
  rw [levels_arr, Nat.add_le_add_iff_right]
  induction items with
  | nil => exact iff_of_true (Nat.zero_le n) nofun
  | cons j rest ih => rw [itemLevels_cons, Nat.max_le, ih, List.forall_mem_cons]

theorem levels_obj_le_iff {fields : List (String × Json)} {n : Nat} :
    levels (obj fields) ≤ n + 1 ↔ ∀ f ∈ fields, levels f.2 ≤ n := by
  rw [levels_obj, Nat.add_le_add_iff_right]
  induction fields with
  | nil => exact iff_of_true (Nat.zero_le n) nofun
  | cons f rest ih => rw [fieldLevels_cons, Nat.max_le, ih, List.forall_mem_cons]

theorem faithful_arr_iff {items : List Json} : Faithful (arr items) ↔ ∀ j ∈ items, Faithful j := by
  show FaithfulItems items ↔ _
  induction items with
  | nil => exact iff_of_true trivial nofun
  | cons j rest ih => rw [faithfulItems_cons, ih, List.forall_mem_cons]

theorem faithful_obj_iff {fields : List (String × Json)} :
    Faithful (obj fields) ↔ ∀ f ∈ fields, Faithful f.2 := by
  show FaithfulFields fields ↔ _
  induction fields with
  | nil => exact iff_of_true trivial nofun
  | cons f rest ih => rw [faithfulFields_cons, ih, List.forall_mem_cons]

theorem forall_mem_ofFields_iff {entries : List (String × Option Json)} {P : Json → Prop} :
    (∀ f ∈ entries.filterMap fun f => f.2.map (f.1, ·), P f.2) ↔
      ∀ f ∈ entries, ∀ j, f.2 = some j → P j := by
  constructor
  · intro h f hf j hj
    exact h (f.1, j) (List.mem_filterMap.2 ⟨f, hf, by rw [hj]; rfl⟩)
  · intro h g hg
    obtain ⟨f, hf, heq⟩ := List.mem_filterMap.1 hg
    obtain ⟨j, hj, rfl⟩ := Option.map_eq_some_iff.1 heq
    exact h f hf j hj

theorem levels_ofFields_le_iff {entries : List (String × Option Json)} {n : Nat} :
    levels (ofFields entries) ≤ n + 1 ↔ ∀ f ∈ entries, ∀ j, f.2 = some j → levels j ≤ n :=
  levels_obj_le_iff.trans (forall_mem_ofFields_iff (P := fun j => levels j ≤ n))

theorem faithful_ofFields_iff {entries : List (String × Option Json)} :
    Faithful (ofFields entries) ↔ ∀ f ∈ entries, ∀ j, f.2 = some j → Faithful j :=
  faithful_obj_iff.trans forall_mem_ofFields_iff

section Scalars

variable (b : Bool) (x : Float) (s : String) (n : UInt64)

@[simp] theorem levels_null : null.levels = 0 := rfl

@[simp] theorem levels_bool : (bool b).levels = 0 := rfl

@[simp] theorem levels_float : (float x).levels = 0 := rfl

@[simp] theorem levels_str : (str s).levels = 0 := rfl

@[simp] theorem levels_word : (word n).levels = 0 := rfl

@[simp] theorem faithful_null : null.Faithful := trivial

@[simp] theorem faithful_bool : (bool b).Faithful := trivial

@[simp] theorem faithful_float_iff : (float x).Faithful ↔ ReadsBack x := Iff.rfl

@[simp] theorem faithful_str : (str s).Faithful := trivial

@[simp] theorem faithful_word : (word n).Faithful := by
  have hn : n.toNat < twoTo 64 := n.toNat_lt
  show -(twoTo 63 : Int) ≤ n.toNat ∧ (n.toNat : Int) < twoTo 64
  omega

end Scalars

/-! ## The beginning of a value -/

theorem skip_cons {c : Char} (hc : isSpace c = false) (s : List Char) : skip (c :: s) = c :: s := by
  simp [skip, hc]

theorem quoted_append (s x : List Char) :
    quoted s ++ x = '"' :: (s.flatMap escape ++ '"' :: x) := by
  simp [quoted]

theorem value_quoted {depth fuel : Nat} {s : List Char} (hfuel : s.length < fuel) (x : List Char) :
    value depth (fuel + 1) (quoted s ++ x) = some (str (String.ofList s), x) := by
  rw [quoted_append]
  show (string [] fuel (s.flatMap escape ++ '"' :: x)).map (fun p => (str p.1, p.2)) = _
  rw [string_escaped hfuel]
  rfl

/-- A value that begins with a sign or a digit is a number. -/
theorem value_of_number {depth fuel : Nat} {s : List Char} {j : Json} {r : List Char}
    (h : number s = some (j, r)) : value depth (fuel + 1) s = some (j, r) := by
  cases s with
  | nil => cases h
  | cons c s =>
      have hhead := head_of_number (c := c) (s := s) (by rw [h]; rfl)
      have hne : ∀ d : Char, d.isDigit = false → d ≠ '-' → c ≠ d := by
        rintro d hd hminus rfl
        rcases hhead with heq | hdigit
        · exact hminus heq
        · rw [hd] at hdigit
          cases hdigit
      have hspace : isSpace c = false := by
        simp [isSpace, hne]
      rw [value, skip_cons hspace]
      simp [hne, h]

theorem skip_skip (s : List Char) : skip (skip s) = skip s :=
  List.dropWhile_idempotent _ _

/-- The spaces in front of a value do not matter. -/
theorem value_congr {depth fuel : Nat} {s t : List Char} (h : skip s = skip t) :
    value depth fuel s = value depth fuel t := by
  cases fuel with
  | zero => rfl
  | succ fuel => rw [value, value, h]

theorem items_succ (depth : Nat) (done : List Json) (fuel : Nat) (s : List Char) :
    items depth done (fuel + 1) s =
      match value depth fuel s with
      | none => none
      | some (j, rest) =>
        match skip rest with
        | ',' :: r => items depth (j :: done) fuel r
        | ']' :: r => some (arr (j :: done).reverse, r)
        | _ => none :=
  rfl

theorem items_skip (depth : Nat) (done : List Json) (fuel : Nat) (s : List Char) :
    items depth done fuel (skip s) = items depth done fuel s := by
  cases fuel with
  | zero => rfl
  | succ fuel => rw [items_succ, items_succ, value_congr (skip_skip s)]

/-- No item begins with a closing bracket. -/
theorem items_bracket {depth fuel : Nat} {done : List Json} {s r : List Char}
    (hs : skip s = ']' :: r) : items depth done fuel s = none := by
  have hnumber : number (']' :: r) = none := by
    by_contra hne
    rcases head_of_number (Option.isSome_iff_ne_none.2 hne) with h | h <;> cases h
  have hvalue : ∀ fuel, value depth fuel (']' :: r) = none := by
    intro fuel
    cases fuel with
    | zero => rfl
    | succ fuel => exact hnumber
  have hskip : skip s = skip (']' :: r) := by rw [hs, skip_cons rfl]
  cases fuel with
  | zero => rfl
  | succ fuel => rw [items_succ, value_congr hskip, hvalue]

/-! ## Arrays -/

theorem value_bracket {depth fuel : Nat} {s : List Char} {p : Json × List Char} (hdepth : 1 < depth)
    (h : items (depth - 1) [] fuel s = some p) : value depth (fuel + 1) ('[' :: s) = some p := by
  refine (if_neg (Nat.not_le.2 hdepth)).trans ?_
  split
  · next r heq =>
    rw [items_bracket heq] at h
    cases h
  · rw [items_skip, h]

theorem items_cons {depth fuel : Nat} {done : List Json} {s r : List Char} {j : Json}
    (h : value depth fuel s = some (j, ',' :: r)) :
    items depth done (fuel + 1) s = items depth (j :: done) fuel r := by
  rw [items_succ, h]
  rfl

theorem items_last {depth fuel : Nat} {done : List Json} {s r : List Char} {j : Json}
    (h : value depth fuel s = some (j, ']' :: r)) :
    items depth done (fuel + 1) s = some (arr (done.reverse ++ [j]), r) := by
  rw [items_succ, h, ← List.reverse_cons]
  rfl

/-! ## Objects -/

theorem value_brace {depth fuel : Nat} {s : List Char} (hdepth : 1 < depth) (x : List Char) :
    value depth (fuel + 1) ('\x7b' :: (quoted s ++ x)) =
      fields (depth - 1) [] fuel (quoted s ++ x) := by
  show (if depth ≤ 1 then none else fields (depth - 1) [] fuel (quoted s ++ x)) = _
  rw [if_neg (Nat.not_le.2 hdepth)]

/-- A key is read with its colon. -/
theorem fields_quoted {depth fuel : Nat} {k : List Char} (hk : k.length < fuel)
    (done : List (String × Json)) (s : List Char) :
    fields depth done (fuel + 1) (quoted k ++ ':' :: s) =
      match value depth fuel s with
      | none => none
      | some (j, rest) =>
        match skip rest with
        | ',' :: r => fields depth ((String.ofList k, j) :: done) fuel r
        | '\x7d' :: r => some (obj ((String.ofList k, j) :: done).reverse, r)
        | _ => none := by
  rw [quoted_append, fields, skip_cons rfl]
  simp only [string_escaped hk]
  rfl

theorem fields_cons {depth fuel : Nat} {done : List (String × Json)} {k s r : List Char} {j : Json}
    (hk : k.length < fuel) (h : value depth fuel s = some (j, ',' :: r)) :
    fields depth done (fuel + 1) (quoted k ++ ':' :: s) =
      fields depth ((String.ofList k, j) :: done) fuel r := by
  rw [fields_quoted hk, h]
  rfl

theorem fields_last {depth fuel : Nat} {done : List (String × Json)} {k s r : List Char} {j : Json}
    (hk : k.length < fuel) (h : value depth fuel s = some (j, '\x7d' :: r)) :
    fields depth done (fuel + 1) (quoted k ++ ':' :: s) =
      some (obj (done.reverse ++ [(String.ofList k, j)]), r) := by
  rw [fields_quoted hk, h, ← List.reverse_cons]
  rfl

/-! ## Values -/

theorem length_lt_quoted (s : List Char) : s.length + 1 < (quoted s).length := by
  have hescape : ∀ c, 1 ≤ (escape c).length := by
    intro c
    unfold escape
    split
    iterate 7 decide
    split <;> simp
  have hlength : s.length ≤ (s.flatMap escape).length := by
    induction s with
    | nil => exact Nat.le_refl _
    | cons c s ih =>
        rw [List.flatMap_cons, List.length_append, List.length_cons]
        have := hescape c
        omega
  rw [quoted, List.length_append, List.length_cons, List.length_singleton]
  omega

theorem write_arr (j : Json) (rest : List Json) :
    write (.arr (j :: rest)) = '[' :: write j ++ writeItems rest := rfl

theorem write_arr_append (j : Json) (rest : List Json) (x : List Char) :
    write (.arr (j :: rest)) ++ x = '[' :: (write j ++ (writeItems rest ++ x)) := by
  simp [write_arr]

theorem length_write_arr (j : Json) (rest : List Json) :
    (write (.arr (j :: rest))).length = (write j).length + (writeItems rest).length + 1 := by
  simp [write_arr]

theorem writeItems_cons (j : Json) (rest : List Json) :
    writeItems (j :: rest) = ',' :: write j ++ writeItems rest := rfl

theorem writeFields_cons (k : String) (j : Json) (rest : List (String × Json)) :
    writeFields ((k, j) :: rest) =
      ',' :: quoted k.toList ++ ':' :: write j ++ writeFields rest := rfl

theorem writeFields_append (k : String) (j : Json) (rest : List (String × Json)) (x : List Char) :
    writeFields ((k, j) :: rest) ++ x =
      ',' :: (quoted k.toList ++ ':' :: (write j ++ (writeFields rest ++ x))) := by
  simp [writeFields_cons]

theorem length_writeFields (k : String) (j : Json) (rest : List (String × Json)) :
    (writeFields ((k, j) :: rest)).length =
      (quoted k.toList).length + 1 + (write j).length + (writeFields rest).length + 1 := by
  simp [writeFields_cons]
  omega

theorem write_obj_append (f : String × Json) (rest : List (String × Json)) (x : List Char) :
    write (.obj (f :: rest)) ++ x = '\x7b' :: (writeFields (f :: rest) ++ x).tail :=
  rfl

theorem length_write_obj (f : String × Json) (rest : List (String × Json)) :
    (write (.obj (f :: rest))).length = (writeFields (f :: rest)).length := rfl

mutual

/-- A value is read back before what no number goes on into. -/
theorem value_write : ∀ (j : Json) {depth fuel : Nat} {x : List Char}, j.Faithful →
    j.levels < depth → (write j).length < fuel → Ends x →
    value depth fuel (write j ++ x) = some (j, x)
  | _, _, 0, _, _, _, hfuel, _ => absurd hfuel (Nat.not_lt_zero _)
  | .null, _, _ + 1, _, _, _, _, _ => rfl
  | .bool true, _, _ + 1, _, _, _, _, _ => rfl
  | .bool false, _, _ + 1, _, _, _, _, _ => rfl
  | .int _, _, _ + 1, _, h, _, _, hx => value_of_number (number_append hx (number_int h.1 h.2))
  | .float _, _, _ + 1, _, h, _, _, hx => value_of_number (number_append hx h)
  | .str s, _, fuel + 1, x, _, _, hfuel, _ => by
      have hlength : (quoted s.toList).length < fuel + 1 := hfuel
      have := length_lt_quoted s.toList
      show value _ _ (quoted s.toList ++ x) = _
      rw [value_quoted (by omega), String.ofList_toList]
  | .arr [], _, _ + 1, _, _, hdepth, _, _ => if_neg (Nat.not_le.2 hdepth)
  | .arr (j :: rest), depth, fuel + 1, x, h, hdepth, hfuel, _ => by
      rw [levels_arr] at hdepth
      rw [length_write_arr] at hfuel
      rw [write_arr_append]
      exact value_bracket (by omega) (items_write (j :: rest) [] x rfl h (by omega) (by omega))
  | .obj [], _, _ + 1, _, _, hdepth, _, _ => if_neg (Nat.not_le.2 hdepth)
  | .obj ((k, j) :: rest), depth, fuel + 1, x, h, hdepth, hfuel, _ => by
      rw [levels_obj] at hdepth
      rw [length_write_obj, length_writeFields] at hfuel
      rw [write_obj_append, writeFields_append, List.tail_cons, value_brace (by omega)]
      exact fields_write ((k, j) :: rest) [] x rfl h (by omega) (by omega)

/-- Items are read back up to the closing bracket. -/
theorem items_write : ∀ (items : List Json) {j : Json} {rest : List Json} {depth fuel : Nat}
    (done : List Json) (x : List Char), items = j :: rest → FaithfulItems items →
    itemLevels items < depth → (write j).length + (writeItems rest).length < fuel →
    Json.items depth done fuel (write j ++ (writeItems rest ++ x)) =
      some (arr (done.reverse ++ items), x)
  | _, _, _, _, 0, _, _, _, _, _, hfuel => absurd hfuel (Nat.not_lt_zero _)
  | [j], _, _, depth, fuel + 1, done, x, rfl, h, hdepth, hfuel => by
      rw [itemLevels_cons, Nat.max_lt] at hdepth
      have hfuel : (write j).length + 1 < fuel + 1 := hfuel
      have hvalue : value depth fuel (write j ++ ']' :: x) = some (j, ']' :: x) :=
        value_write j h.1 hdepth.1 (by omega) (ends_cons_iff.2 (by decide))
      exact items_last hvalue
  | j :: k :: rest, _, _, depth, fuel + 1, done, x, rfl, h, hdepth, hfuel => by
      rw [itemLevels_cons, Nat.max_lt] at hdepth
      rw [writeItems_cons, List.length_append, List.length_cons] at hfuel
      have hvalue : ∀ y, value depth fuel (write j ++ ',' :: y) = some (j, ',' :: y) := fun _ =>
        value_write j h.1 hdepth.1 (by omega) (ends_cons_iff.2 (by decide))
      rw [writeItems_cons, List.append_assoc, List.cons_append, items_cons (hvalue _),
        items_write (k :: rest) (j :: done) x rfl h.2 hdepth.2 (by omega)]
      simp

/-- Fields are read back up to the closing brace. -/
theorem fields_write : ∀ (fields : List (String × Json)) {k : String} {j : Json}
    {rest : List (String × Json)} {depth fuel : Nat} (done : List (String × Json)) (x : List Char),
    fields = (k, j) :: rest → FaithfulFields fields → fieldLevels fields < depth →
    (quoted k.toList).length + 1 + (write j).length + (writeFields rest).length < fuel →
    Json.fields depth done fuel (quoted k.toList ++ ':' :: (write j ++ (writeFields rest ++ x))) =
      some (obj (done.reverse ++ fields), x)
  | _, _, _, _, _, 0, _, _, _, _, _, hfuel => absurd hfuel (Nat.not_lt_zero _)
  | [(k, j)], _, _, _, depth, fuel + 1, done, x, rfl, h, hdepth, hfuel => by
      rw [fieldLevels_cons, Nat.max_lt] at hdepth
      have hfuel : (quoted k.toList).length + 1 + (write j).length + 1 < fuel + 1 := hfuel
      have hk := length_lt_quoted k.toList
      have hvalue : value depth fuel (write j ++ '\x7d' :: x) = some (j, '\x7d' :: x) :=
        value_write j h.1 hdepth.1 (by omega) (ends_cons_iff.2 (by decide))
      show Json.fields _ _ _ (quoted k.toList ++ ':' :: (write j ++ '\x7d' :: x)) = _
      rw [fields_last (by omega) hvalue, String.ofList_toList]
  | (k, j) :: (l, i) :: rest, _, _, _, depth, fuel + 1, done, x, rfl, h, hdepth, hfuel => by
      rw [fieldLevels_cons, Nat.max_lt] at hdepth
      rw [length_writeFields] at hfuel
      have hk := length_lt_quoted k.toList
      have hvalue : ∀ y, value depth fuel (write j ++ ',' :: y) = some (j, ',' :: y) := fun _ =>
        value_write j h.1 hdepth.1 (by omega) (ends_cons_iff.2 (by decide))
      rw [writeFields_append, fields_cons (by omega) (hvalue _), String.ofList_toList,
        fields_write ((l, i) :: rest) ((k, j) :: done) x rfl h.2 hdepth.2 (by omega)]
      simp

end

/-- A value is read back from its text. -/
theorem parse?_render {j : Json} (h : j.Faithful) (hlevels : j.levels ≤ 127) :
    parse? (render j) = some j := by
  have hvalue : value 128 (2 * (write j).length + 2) (write j ++ []) = some (j, []) :=
    value_write j h (by omega) (by omega) rfl
  rw [List.append_nil] at hvalue
  rw [parse?, render, String.toList_ofList, hvalue]
  rfl

end ColumnTree.Json
