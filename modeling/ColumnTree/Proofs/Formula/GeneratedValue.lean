/-
# What formulas made from columns give

With the standard functions, a formula that was made from columns has the value that its operation is
meant to have (`generate_standard`): a sum adds the cells from left to right, a text joins theirs, and
a mean divides the sum of the shares by the total weight.

The value of a sum is followed from the values of its terms (`evaluates_summed`).  That the printed
texts of the weights are read back as the weights is a condition of the mean.
-/
import ColumnTree.Proofs.Formula.Generated
import ColumnTree.Proofs.Library.LookUp

namespace ColumnTree.Formula

/-- A text compiles at a level to a formula with a value on each row. -/
def Evaluates (l : Library) (v : Level) (x : List Char) (value : Row → Cell) : Prop :=
  ∃ e, CompilesAt l v x e ∧ ∀ row, e.eval row = value row

variable {l : Library} {v : Level} {x : List Char}

/-! ## Values of terms -/

/-- A term of a sum with a value on each row. -/
structure HasValue (l : Library) (x : List Char) (value : Row → Cell) : Prop where
  spelled : ∃ ms, Spelled .product x ms
  evaluates : Evaluates l .product x value

theorem Evaluates.hasValue {ms : List Mark} {value : Row → Cell} (h : Evaluates l .primary x value)
    (hx : Spelled .primary x ms) : HasValue l x value := by
  obtain ⟨e, he, hvalue⟩ := h
  refine ⟨⟨ms, hx.mono (by decide)⟩, e, ?_, hvalue⟩
  rwa [hx.compilesAt_iff_of_le (by decide)]

theorem compilesAt_reference_self {name : String} (h : IsColumnName name.toList) :
    CompilesAt l .primary (reference name) (.column name) := by
  rw [compilesAt_reference h.balanced, columnOf_eq_self h.trimmed, h.trimmed]
  exact ⟨h.ne_nil, rfl⟩

theorem hasValue_reference {name : String} (h : IsColumnName name.toList) :
    HasValue l (reference name) fun row => row name := by
  obtain ⟨ms, hms⟩ := Spelled.reference h.balanced
  exact Evaluates.hasValue ⟨_, compilesAt_reference_self h, fun row => rfl⟩ hms

theorem hasValue_stringOf (now : Calendar.Moment) {name : String} (h : IsColumnName name.toList) :
    HasValue (.standard now) (stringOf name) fun row => .text (row name).toText := by
  obtain ⟨r, hr, happly⟩ := Library.exists_resolve_string now
  obtain ⟨ms, hms⟩ := Spelled.stringOf h.balanced
  refine Evaluates.hasValue ⟨.call r [.column name], ?_, fun row => happly (row name)⟩ hms
  exact (compilesAt_stringOf h.balanced).2 ⟨r, _, hr, compilesAt_reference_self h, rfl⟩

namespace Contribution

variable {c : Contribution}

/-- What a column adds to a mean; a weight of zero counts as one. -/
def share (c : Contribution) (row : Row) : Cell :=
  (Cell.number (if c.weight == 0.0 then 1.0 else c.weight)).mul (row c.name)

theorem factor_eq (h : c.weight.isFinite = true) :
    c.factor = if c.weight == 0.0 then 1.0 else c.weight := by
  rw [factor, Decimal.isNaN_of_isFinite h, Bool.or_false]

theorem isFinite_factor (h : c.weight.isFinite = true) : c.factor.isFinite = true := by
  rw [factor_eq h]
  split
  · rfl
  · exact h

theorem hasValue_weighted (hname : IsColumnName c.name.toList) (hfinite : c.weight.isFinite = true)
    (hback : ReadsBack c.factor) : HasValue l c.weighted c.share := by
  obtain ⟨f, hf, hvalue⟩ := exists_compilesAt_numberText l (isFinite_factor hfinite) hback
  refine ⟨Spelled.weighted hname.balanced, .binary .product f (.column c.name), ?_, fun row => ?_⟩
  · rw [compilesAt_weighted hname.balanced]
    exact ⟨f, _, hf, compilesAt_reference_self hname, rfl⟩
  · rw [Expr.eval_binary, hvalue, factor_eq hfinite]
    rfl

end Contribution

/-! ## Values of sums -/

section Sums

variable {c : Contribution} {cs : List Contribution} {term : Contribution → List Char}
  {value : Contribution → Row → Cell}

theorem exists_compilesAt_terms (h : ∀ c ∈ cs, HasValue l (term c) (value c)) :
    ∃ es, List.Forall₂ (CompilesAt l .product) (cs.map term) es ∧
      ∀ row, es.map (·.eval row) = cs.map (value · row) := by
  induction cs with
  | nil => exact ⟨[], .nil, fun row => rfl⟩
  | cons c cs ih =>
      obtain ⟨e, he, hvalue⟩ := (h c (List.mem_cons_self ..)).evaluates
      obtain ⟨es, hes, hvalues⟩ := ih fun d hd => h d (List.mem_cons_of_mem _ hd)
      refine ⟨e :: es, .cons he hes, fun row => ?_⟩
      rw [List.map_cons, hvalue, hvalues, List.map_cons]

/-- The values of the terms are added from left to right. -/
theorem evaluates_summed (h : ∀ d ∈ c :: cs, HasValue l (term d) (value d)) :
    Evaluates l .expression (summed ((c :: cs).map term))
      fun row => (cs.map (value · row)).foldl Cell.add (value c row) := by
  obtain ⟨es, hes, hvalues⟩ := exists_compilesAt_terms h
  have hspelled := spelled_map fun d hd => (h d hd).spelled
  cases hes with
  | @cons _ f _ fs hf hfs =>
      refine ⟨_, (compilesAt_summed hspelled).2 ⟨f, fs, .cons hf hfs, rfl⟩, fun row => ?_⟩
      obtain ⟨hvalue, hvalues⟩ := List.cons.inj (hvalues row)
      rw [Expr.eval_foldl_sum, hvalues]
      exact congrArg (List.foldl Cell.add · _) hvalue

end Sums

theorem foldl_add_text (s : String) (ss : List String) :
    (ss.map Cell.text).foldl Cell.add (.text s) = .text (String.join (s :: ss)) := by
  induction ss generalizing s with
  | nil => simp
  | cons t ss ih =>
      rw [List.map_cons, List.foldl_cons, Cell.add, Cell.toText, ih]
      simp [String.append_assoc]

/-! ## Values of formulas -/

/-- A formula is made from columns, and it has a value on each row. -/
def Makes (l : Library) (op : Operation) (cs : List Contribution) (value : Row → Cell) : Prop :=
  ∃ t e, generate l op cs = .valid t e ∧ ∀ row, e.eval row = value row

theorem Evaluates.makes {op : Operation} {cs : List Contribution} {value : Row → Cell}
    (h : Evaluates l .expression x value) (hx : recipe op (cs.filter (·.used)) = some x) :
    Makes l op cs value := by
  obtain ⟨e, he, hvalue⟩ := h
  exact ⟨_, e, generate_eq_valid_iff_recipe.2 ⟨x, hx, rfl, he⟩, hvalue⟩

section Makes

variable {cs rest : List Contribution} {c : Contribution} (hused : cs.filter (·.used) = c :: rest)
  (hnames : ∀ d ∈ c :: rest, IsColumnName d.name.toList)

include hused hnames

theorem makes_sum : Makes l .sum cs
    fun row => (rest.map fun d => row d.name).foldl Cell.add (row c.name) := by
  refine (evaluates_summed fun d hd => hasValue_reference (hnames d hd)).makes ?_
  rw [hused, recipe]

theorem makes_concat (now : Calendar.Moment) : Makes (.standard now) .concat cs
    fun row => .text (String.join ((c :: rest).map fun d => (row d.name).toText)) := by
  obtain ⟨e, he, hvalue⟩ := evaluates_summed fun d hd => hasValue_stringOf now (hnames d hd)
  refine Evaluates.makes ⟨e, he, fun row => ?_⟩ (by rw [hused]; rfl)
  have hjoin := foldl_add_text (row c.name).toText (rest.map fun d => (row d.name).toText)
  rw [List.map_map] at hjoin
  exact (hvalue row).trans hjoin

theorem makes_mean (hweights : ∀ d ∈ c :: rest, d.weight.isFinite = true ∧ ReadsBack d.factor)
    (hfinite : (totalWeight (c :: rest)).isFinite = true)
    (hback : ReadsBack (totalWeight (c :: rest))) : Makes l .mean cs fun row =>
      ((rest.map (·.share row)).foldl Cell.add (c.share row)).div
        (.number (totalWeight (c :: rest))) := by
  obtain ⟨f, hf, hsum⟩ := evaluates_summed fun d hd =>
    Contribution.hasValue_weighted (l := l) (hnames d hd) (hweights d hd).1 (hweights d hd).2
  obtain ⟨g, hg, htotal⟩ := exists_compilesAt_numberText l hfinite hback
  have hmean := (compilesAt_mean fun d hd => (hnames d hd).balanced).2 ⟨f, g, hf, hg, rfl⟩
  refine Evaluates.makes ⟨_, hmean, fun row => ?_⟩ (by rw [hused, recipe_mean])
  rw [Expr.eval_binary, Expr.eval_group, hsum, htotal]
  rfl

end Makes

/-- With the standard functions, the columns that take part make a formula if their names can stand in
a reference.  It adds their cells, joins their texts, or divides what they add to a mean by the
total weight; in a mean the numbers must be finite and be read back from their texts. -/
theorem generate_standard (now : Calendar.Moment) {cs rest : List Contribution} {c : Contribution}
    (hused : cs.filter (·.used) = c :: rest)
    (hnames : ∀ d ∈ c :: rest, IsColumnName d.name.toList) :
    Makes (.standard now) .sum cs
        (fun row => (rest.map fun d => row d.name).foldl Cell.add (row c.name)) ∧
      Makes (.standard now) .concat cs
        (fun row => .text (String.join ((c :: rest).map fun d => (row d.name).toText))) ∧
      ((∀ d ∈ c :: rest, d.weight.isFinite = true ∧ ReadsBack d.factor) →
        (totalWeight (c :: rest)).isFinite = true → ReadsBack (totalWeight (c :: rest)) →
          Makes (.standard now) .mean cs fun row =>
            ((rest.map (·.share row)).foldl Cell.add (c.share row)).div
              (.number (totalWeight (c :: rest)))) :=
  ⟨makes_sum hused hnames, makes_concat hused hnames now, makes_mean hused hnames⟩

/-- Two columns with odd names, a negative weight and a weight of zero; one more column takes no
part. -/
theorem generate_standard_negative :
    let c : Contribution := ⟨1, "a or (b)", -0.5, true⟩
    let d : Contribution := ⟨3, "x + y", 0.0, true⟩
    let cs : List Contribution := [c, ⟨2, " z", 1.0, false⟩, d]
    let l : Library := .standard (.midnight ⟨0⟩)
    (totalWeight [c, d] == -0.5) = true ∧
      Makes l .sum cs (fun row => (row "a or (b)").add (row "x + y")) ∧
      Makes l .concat cs
        (fun row => .text (String.join [(row "a or (b)").toText, (row "x + y").toText])) ∧
      Makes l .mean cs fun row =>
        ((c.share row).add (d.share row)).div (.number (totalWeight [c, d])) := by
  intro c d cs l
  have hnames : ∀ k ∈ [c, d], IsColumnName k.name.toList := by decide
  have hweights : ∀ k ∈ [c, d], k.weight.isFinite = true ∧
      Decimal.read? (numberText k.factor) = some k.factor := by decide
  have htotal : (totalWeight [c, d]).isFinite = true := by decide
  have hback : Decimal.read? (numberText (totalWeight [c, d])) = some (totalWeight [c, d]) := by
    decide
  obtain ⟨hsum, hconcat, hmean⟩ := generate_standard (.midnight ⟨0⟩) (show cs.filter (·.used) = [c, d]
    from rfl) hnames
  exact ⟨by decide, hsum, hconcat, hmean hweights htotal hback⟩

end ColumnTree.Formula
