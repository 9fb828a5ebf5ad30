/-
# Names of columns

Between `$(` and its parenthesis the scanner counts parentheses, and a name is read back as it stands
just if its parentheses are `Balanced`.
-/
import ColumnTree.Proofs.Formula.Escaped
import ColumnTree.Proofs.Formula.Plain
import ColumnTree.Proofs.Formula.Shaped

namespace ColumnTree.Formula

/-! ## Parentheses in a name -/

/-- Inside a name in which `d` parentheses are open, none of the characters closes the last one. -/
def StaysOpen (d : Nat) (s : List Char) : Prop :=
  ∀ x y, s = x ++ y → x.count ')' < d + x.count '('

/-- The number of open parentheses after a character. -/
def depthAfter (d : Nat) (c : Char) : Nat :=
  if c = '(' then d + 1 else if c = ')' then d - 1 else d

theorem count_cons_depthAfter {d : Nat} (hd : d ≠ 0) (c : Char) (x : List Char) :
    ((c :: x).count ')' < d + (c :: x).count '(' ↔ x.count ')' < depthAfter d c + x.count '(') ∧
      d + (c :: x).count '(' - (c :: x).count ')' = depthAfter d c + x.count '(' - x.count ')' := by
  unfold depthAfter
  by_cases hopen : c = '('
  · subst hopen
    simp only [List.count_cons, if_true]
    simp
    omega
  · by_cases hclose : c = ')'
    · subst hclose
      simp only [List.count_cons]
      simp
      omega
    · simp [hopen, hclose]

theorem staysOpen_cons {d : Nat} (hd : d ≠ 0) {c : Char} {s : List Char} :
    StaysOpen d (c :: s) ↔ depthAfter d c ≠ 0 ∧ StaysOpen (depthAfter d c) s := by
  constructor
  · intro h
    refine ⟨?_, fun x y heq => ?_⟩
    · have := (count_cons_depthAfter hd c []).1.1 (h [c] s rfl)
      simp only [List.count_nil] at this
      omega
    · exact (count_cons_depthAfter hd c x).1.1 (h (c :: x) y (by rw [heq]; rfl))
  · rintro ⟨hne, hs⟩ x y heq
    cases x with
    | nil => simpa using Nat.pos_of_ne_zero hd
    | cons b x =>
        obtain ⟨rfl, hrest⟩ := List.cons.inj heq
        exact (count_cons_depthAfter hd c x).1.2 (hs x y hrest)

theorem step_name (d o : Nat) (stack : List Char) (c : Char) :
    ScanState.step ⟨.name d, stack⟩ o c = if depthAfter d c = 0 then
      .ok (⟨.plain false, stack⟩, stack.isEmpty) else .ok (⟨.name (depthAfter d c), stack⟩, false) :=
  rfl

/-- What stays inside a name is scanned as a part of it. -/
theorem Reads.name {d : Nat} {s : List Char} (hd : d ≠ 0) (h : StaysOpen d s)
    (stack : List Char) : Reads ⟨.name d, stack⟩ s (s.map (.of · false))
      ⟨.name (d + s.count '(' - s.count ')'), stack⟩ := by
  induction s generalizing d with
  | nil => exact .nil
  | cons c s ih =>
      obtain ⟨hne, hs⟩ := (staysOpen_cons hd).1 h
      rw [(count_cons_depthAfter hd c s).2]
      exact .cons (by rw [step_name, if_neg hne]) (ih hne hs)

/-- A part of a text that begins in a name and closes no parenthesis on top is inside the name. -/
theorem Reads.staysOpen {d : Nat} {s : List Char} {ms : List Mark} {s' : ScanState} (hd : d ≠ 0)
    (h : Reads ⟨.name d, []⟩ s ms s') (hms : ∀ m ∈ ms, (m.top && m.char == ')') = false) :
    StaysOpen d s := by
  induction s generalizing d ms with
  | nil =>
      intro x y heq
      obtain ⟨rfl, -⟩ := List.append_eq_nil_iff.1 heq.symm
      simpa using Nat.pos_of_ne_zero hd
  | cons c s ih =>
      cases h with
      | cons hstep hrest =>
          rw [step_name] at hstep
          split at hstep
          · next hzero =>
            -- The parenthesis that closes the name is on top.
            obtain ⟨-, rfl⟩ := Prod.mk.inj (Except.ok.inj hstep)
            have hc : c = ')' := by
              unfold depthAfter at hzero
              split at hzero
              · omega
              · split at hzero
                · next hc => exact hc
                · exact absurd hzero hd
            have := hms _ (List.mem_cons_self ..)
            rw [hc] at this
            cases this
          · next hne =>
            obtain ⟨rfl, -⟩ := Prod.mk.inj (Except.ok.inj hstep)
            exact (staysOpen_cons hd).2
              ⟨hne, ih hne hrest fun m hm => hms m (List.mem_cons_of_mem _ hm)⟩

theorem balanced_iff {s : List Char} :
    Balanced s ↔ StaysOpen 1 s ∧ 1 + s.count '(' - s.count ')' = 1 := by
  constructor
  · intro h
    refine ⟨fun x y heq => ?_, by rw [h.count_eq]; omega⟩
    have := h.count_le x y heq
    omega
  · rintro ⟨hopen, hcount⟩
    have := hopen s [] (List.append_nil s).symm
    refine ⟨by omega, fun x y heq => ?_⟩
    have := hopen x y heq
    omega

theorem Balanced.trim {s : List Char} (h : Balanced s) : Balanced (Text.trim s) := by
  obtain ⟨x, y, heq, hx, hy⟩ := Text.exists_trim s
  have hcount : ∀ {z : List Char} (c : Char), Text.isBlank c = false → Text.Blanks z →
      z.count c = 0 := by
    intro z c hc hz
    refine List.count_eq_zero.2 fun hmem => ?_
    rw [hz c hmem] at hc
    cases hc
  have hxo := hcount '(' rfl hx
  have hxc := hcount ')' rfl hx
  constructor
  · have := h.count_eq
    rw [heq] at this
    simpa [hxo, hxc, hcount '(' rfl hy, hcount ')' rfl hy] using this
  · intro p q hpq
    have := h.count_le (x ++ p) (q ++ y) (by rw [heq, hpq]; simp)
    simpa [hxo, hxc] using this

/-- The scanner goes through `$(`, a balanced name and its parenthesis. -/
theorem Reads.column {s : List Char} (h : Balanced s) (stack : List Char) :
    Reads ⟨.plain false, stack⟩ ('$' :: '(' :: (s ++ [')']))
      (.of '$' stack.isEmpty :: .of '(' stack.isEmpty ::
        (s.map (.of · false) ++ [.of ')' stack.isEmpty])) ⟨.plain false, stack⟩ := by
  obtain ⟨hopen, hcount⟩ := balanced_iff.1 h
  have hname := Reads.name Nat.one_ne_zero hopen stack
  rw [hcount] at hname
  exact .cons rfl (.cons rfl (hname.append (.single rfl)))

/-- A reference to a balanced name is read as the column of the trimmed name, unless that is empty. -/
theorem splitReference_balanced {s : List Char} {step : Step} (h : Balanced s) :
    splitReference ('$' :: '(' :: (s ++ [')'])) = .ok step ↔
      Text.trim s ≠ [] ∧ step = .done (.leaf .column (String.ofList (Text.trim s))) := by
  have hfind : (s.map (Mark.of · false) ++ [Mark.of ')' true]).findIdx?
      (fun m => m.top && m.char == ')') = some s.length := by
    rw [List.findIdx?_append, List.findIdx?_eq_none_iff.2 (by simp)]
    simp [List.findIdx?_cons]
  rw [splitReference_eq_ok_iff, List.drop_succ_cons, List.drop_zero, inside_cons_append]
  constructor
  · rintro ⟨-, -, -, -, hne, hstep⟩
    exact ⟨hne, hstep⟩
  · rintro ⟨hne, hstep⟩
    refine ⟨_, ⟨false, Reads.column h []⟩, rfl, ?_, hne, hstep⟩
    rw [List.isEmpty_nil, List.drop_succ_cons, List.drop_succ_cons, List.drop_zero, hfind]
    simp

/-- If the first parenthesis that closes on top is the last character, the name before it is
balanced. -/
theorem exists_balanced {t : List Char} {ms : List Mark} {d : Bool}
    (h : Reads ⟨.name 1, []⟩ t ms ⟨.plain d, []⟩)
    (hclose : (ms.findIdx? fun m => m.top && m.char == ')').any (· + 1 == t.length) = true) :
    ∃ u, t = u ++ [')'] ∧ Balanced u := by
  obtain ⟨i, hi, hlen⟩ := (Option.any_eq_true ..).1 hclose
  rw [← h.textOf_eq, length_textOf, beq_iff_eq] at hlen
  rcases List.eq_nil_or_concat ms with rfl | ⟨u, m, rfl⟩
  · cases hi
  rw [List.concat_eq_append] at h hi hlen
  rw [List.findIdx?_append] at hi
  cases hu : u.findIdx? fun m => m.top && m.char == ')' with
  | some j =>
      rw [hu, Option.some_or] at hi
      obtain rfl := Option.some.inj hi
      obtain ⟨hlt, -⟩ := List.findIdx?_eq_some_iff_getElem.1 hu
      simp at hlen
      omega
  | none =>
      rw [hu, Option.none_or] at hi
      have hm : m.char = ')' := by
        by_cases hp : (m.top && m.char == ')') = true
        · simpa using (Bool.and_eq_true_iff.1 hp).2
        · simp [List.findIdx?_cons, hp] at hi
      obtain ⟨s₁, hname, hlast⟩ := h.cut
      have hopen := hname.staysOpen Nat.one_ne_zero (List.findIdx?_eq_none_iff.1 hu)
      obtain ⟨-, rfl⟩ := (Reads.name Nat.one_ne_zero hopen []).unique hname
      refine ⟨textOf u, ?_, balanced_iff.2 ⟨hopen, ?_⟩⟩
      · rw [← h.textOf_eq, textOf_append, ← hm]
        rfl
      · obtain ⟨s₂, hstep, hnil⟩ := hlast.head
        cases hnil
        have := hopen (textOf u) [] (List.append_nil _).symm
        rw [step_name, hm] at hstep
        split at hstep
        · next hzero =>
          rw [depthAfter, if_neg (by decide), if_pos rfl] at hzero
          omega
        · cases hstep

/-- A reference is a balanced text between `$(` and `)`, and what is read from it is that text
without the blanks around it. -/
theorem exists_reference_of_splitReference {t : List Char} {s : Step} (hhead : t.head? = some '$')
    (h : splitReference t = .ok s) :
    ∃ u, t = '$' :: '(' :: (u ++ [')']) ∧ Balanced u ∧ Text.trim u ≠ [] ∧
      s = .done (.leaf .column (String.ofList (Text.trim u))) := by
  obtain ⟨ms, ⟨d, hreads⟩, hopen, hclose, hne, rfl⟩ := splitReference_eq_ok_iff.1 h
  obtain ⟨t, rfl⟩ : ∃ r, t = '$' :: r := by
    cases t with
    | nil => cases hhead
    | cons c r => exact ⟨r, by rw [Option.some.inj hhead]⟩
  obtain ⟨t, rfl⟩ : ∃ r, t = '(' :: r := by
    cases t with
    | nil => cases hopen
    | cons c r => exact ⟨r, by rw [Option.some.inj hopen]⟩
  cases hreads with
  | cons hstep hrest =>
      obtain ⟨rfl, -⟩ := Prod.mk.inj (Except.ok.inj hstep)
      cases hrest with
      | @cons _ _ _ _ _ _ ms hstep hrest =>
          obtain ⟨rfl, -⟩ := Prod.mk.inj (Except.ok.inj hstep)
          rw [List.drop_succ_cons, List.drop_succ_cons, List.drop_zero] at hclose
          obtain ⟨u, rfl, hbalanced⟩ := exists_balanced hrest (by simpa using hclose)
          rw [List.drop_succ_cons, List.drop_zero, inside_cons_append] at hne ⊢
          exact ⟨u, rfl, hbalanced, hne, rfl⟩

/-- What is read from a reference is a name. -/
theorem exists_of_splitReference {t : List Char} {s : Step} (hhead : t.head? = some '$')
    (h : splitReference t = .ok s) :
    ∃ name : String, IsColumnName name.toList ∧ s = .done (.leaf .column name) := by
  obtain ⟨u, -, hbalanced, hne, rfl⟩ := exists_reference_of_splitReference hhead h
  refine ⟨_, ?_, rfl⟩
  rw [String.toList_ofList]
  exact ⟨hne, Text.trim_trim u, hbalanced.trim⟩

end ColumnTree.Formula
