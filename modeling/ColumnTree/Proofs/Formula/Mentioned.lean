/-
# What a formula mentions

The reader cuts a text into parts of it and goes on with the parts, so that whatever it reads stands
somewhere in the text.  For a column that is a reference `$(..)`.  The reader takes the blanks around
the name off, and therefore the name of a column need not stand in the text as it is stored:
`Mentions` has the text of the reference beside the name.

A step of the reader `Cites` a text if its tree mentions only what the trees of its pieces mention, or
what the text refers to.  Every step of every level does (`cites_split`), and by induction on the
weight so does the reader.
-/
import ColumnTree.Proofs.Formula.Compiled
import ColumnTree.Proofs.Formula.Sound

namespace ColumnTree

/-! ## Parts of a text -/

namespace Text

/-- A text occurs in another if it is a part of it. -/
theorem occurs_iff_isPart {needle s : List Char} : occurs needle s = true ↔ needle <:+: s := by
  constructor
  · intro h
    obtain ⟨⟨before, after⟩, hcut⟩ := Option.isSome_iff_exists.1 h
    exact ⟨before, after, (eq_of_cutAt? hcut).symm⟩
  · intro h
    induction s with
    | nil =>
        obtain rfl := List.infix_nil.1 h
        rfl
    | cons c rest ih =>
        rw [occurs, cutAt?]
        split
        · rfl
        · next hprefix =>
          rw [Option.isSome_map]
          rcases List.infix_cons_iff.1 h with hstart | hrest
          · exact absurd (List.isPrefixOf_iff_prefix.2 hstart) hprefix
          · exact ih hrest

theorem trim_isPart (s : List Char) : trim s <:+: s := by
  obtain ⟨x, y, h, -, -⟩ := exists_trim s
  exact ⟨x, y, h.symm⟩

end Text

namespace Formula

/-- A text refers to the column of a name as `$(s)`; around the name there may be blanks. -/
def Mentions (t : List Char) (name s : String) : Prop :=
  Text.trimmed s = name ∧ reference s <:+: t

theorem Mentions.mono {t u : List Char} {name s : String} (h : Mentions u name s) (ht : u <:+: t) :
    Mentions t name s :=
  ⟨h.1, h.2.trans ht⟩

/-- A name that is read somewhere has no blanks around it, so that only the reference as it is made
refers to it without blanks. -/
theorem Mentions.self_iff {t : List Char} {name s : String} (h : Mentions t name s) :
    Mentions t name name ↔ reference name <:+: t := by
  have htrimmed : Text.trimmed name = name := by
    rw [← h.1, Text.trimmed, Text.trimmed, String.toList_ofList, Text.trim_trim]
  exact ⟨And.right, fun href => ⟨htrimmed, href⟩⟩

/-- A text refers to all columns of a tree. -/
def Cited (t : List Char) (a : Ast) : Prop :=
  ∀ n ∈ a.columns, ∃ s, Mentions t n s

theorem Cited.mono {t u : List Char} {a : Ast} (h : Cited u a) (ht : u <:+: t) : Cited t a := by
  intro n hn
  obtain ⟨s, hs⟩ := h n hn
  exact ⟨s, hs.mono ht⟩

/-! ## Steps of the reader -/

namespace Step

/-- A step that leads to a tree whose columns a text refers to, if its pieces are parts of the
text. -/
def Cites (t : List Char) (s : Step) : Prop :=
  (∀ q ∈ s.pieces, ∀ a, parseAt q = .ok a → Cited q.text a) → ∀ a, s.tree = .ok a → Cited t a

variable {t : List Char} {tag : Tag} {p q : Piece}

theorem cites_done {a : Ast} (h : a.columns = []) : Cites t (.done a) := by
  intro _ b hb n hn
  rw [← Except.ok.inj hb, h] at hn
  cases hn

theorem cites_same (hq : q.text <:+: t) : Cites t (.same q) := by
  intro hpieces a ha
  exact (hpieces q (List.mem_singleton.2 rfl) a ha).mono hq

theorem cites_node {head : List String} {ps : List Piece} (htag : tag ≠ .column)
    (hps : ∀ q ∈ ps, q.text <:+: t) : Cites t (.node tag head ps) := by
  intro hpieces a ha n hn
  obtain ⟨cs, hcs, rfl⟩ := tree_node_eq_ok_iff.1 ha
  rw [Ast.columns_node htag] at hn
  obtain ⟨b, hb, hn⟩ := Ast.mem_columnsOf_iff.1 hn
  rcases List.mem_append.1 hb with hb | hb
  · obtain ⟨name, -, rfl⟩ := List.mem_map.1 hb
    cases hn
  · -- The child is the tree of a piece.
    have hmem : (.ok b : Except SyntaxFault Ast) ∈ ps.map parseAt := by
      rw [hcs]
      exact List.mem_map_of_mem hb
    obtain ⟨q, hq, hparse⟩ := List.mem_map.1 hmem
    exact (hpieces q hq b hparse).mono (hps q hq) n hn

theorem cites_index (htag : tag.shape = .pair) (hp : p.text <:+: t) (hq : q.text <:+: t) :
    Cites t (.index tag p q) := by
  intro hpieces a ha n hn
  obtain ⟨b, k, hb, hk, rfl⟩ := tree_index_eq_ok_iff.1 ha
  rw [columns_pair htag, List.mem_append] at hn
  rcases hn with hn | hn
  · exact (hpieces p (by simp [pieces]) b hb).mono hp n hn
  · exact (hpieces q (by simp [pieces]) k hk).mono hq n hn

/-- The operands are parts of the texts beside the operator. -/
theorem cites_of_twoOperands {fault : SyntaxFault} {l r : Level} {left right : List Char} {s : Step}
    (htag : tag ≠ .column) (hleft : left <:+: t) (hright : right <:+: t)
    (h : twoOperands fault tag l r left right = .ok s) : s.Cites t := by
  obtain ⟨-, -, rfl⟩ := twoOperands_eq_ok_iff.1 h
  refine cites_node htag ?_
  rintro q hq
  simp only [List.mem_cons, List.not_mem_nil, or_false] at hq
  rcases hq with rfl | rfl
  · exact (Text.trim_isPart left).trans hleft
  · exact (Text.trim_isPart right).trans hright

end Step

/-! ## Levels -/

section Levels

variable {t : List Char} {s : Step}

theorem Scans.textOf_isPart {ms part : List Mark} (h : Scans t ms) (hpart : part <:+: ms) :
    textOf part <:+: t := by
  rw [← h.textOf_eq]
  exact hpart.map _

/-- What is found before a cut is a part of the text. -/
theorem Scans.left_isPart {b r : List Mark} {m : Mark} (h : Scans t (b.reverse ++ m :: r)) :
    (Cut.mk b m r).left <:+: t :=
  h.textOf_isPart (List.prefix_append _ _).isInfix

/-- What is found behind a cut is a part of the text, also without what belongs to an operator. -/
theorem Scans.right_isPart {b r part : List Mark} {m : Mark} (h : Scans t (b ++ m :: r))
    (hpart : part <:+ r) : textOf part <:+: t := by
  have hsuffix : part <:+ b ++ m :: r := (hpart.trans (List.suffix_cons m r)).trans
    (List.suffix_append b _)
  exact h.textOf_isPart hsuffix.isInfix

theorem cites_splitExpression (h : splitExpression t = .ok s) : s.Cites t := by
  unfold splitExpression at h
  split at h
  · cases h
  · rw [← Except.ok.inj h]
    exact Step.cites_same (Text.trim_isPart t)

theorem cites_splitKeyword {word : String} {tag : Tag} {this next : Level} (htag : tag ≠ .column)
    (hword : word.toList ≠ []) (h : splitKeyword word tag this next t = .ok s) : s.Cites t := by
  obtain ⟨ms, hscan, ⟨-, rfl⟩ | ⟨c, hsome, hop⟩⟩ := splitKeyword_eq_ok_iff.1 h
  · exact Step.cites_same (List.infix_refl t)
  · obtain ⟨rfl, hc, -⟩ := lastCut_eq_some_iff.1 hsome
    obtain ⟨rest, hrest⟩ := Option.isSome_iff_exists.1 hc
    obtain ⟨-, -, ⟨ws, hws, hchars⟩, -⟩ := Cut.afterKeyword?_eq_some_iff.1 hrest
    rw [hrest] at hop
    cases ws with
    | nil => exact absurd hchars.symm hword
    | cons m w =>
        obtain ⟨-, hafter⟩ := List.cons.inj hws
        refine Step.cites_of_twoOperands htag hscan.left_isPart ?_ hop
        exact hscan.right_isPart ⟨w, hafter.symm⟩

theorem cites_splitComparison (h : splitComparison t = .ok s) : s.Cites t := by
  obtain ⟨ms, hscan, ⟨-, rfl⟩ | ⟨c, hsome, tag, rest, htag, hop⟩⟩ := splitComparison_eq_ok_iff.1 h
  · exact Step.cites_same (List.infix_refl t)
  · obtain ⟨rfl, -, -⟩ := firstCut_eq_some_iff.1 hsome
    obtain ⟨hlevels, w, hafter, -⟩ := comparison?_eq_some htag
    refine Step.cites_of_twoOperands ?_ hscan.left_isPart ?_ hop
    · rintro rfl
      cases hlevels
    · exact hscan.right_isPart ⟨w, hafter.symm⟩

theorem cites_splitSum (h : splitSum t = .ok s) : s.Cites t := by
  obtain ⟨ms, hscan, ⟨-, rfl⟩ | ⟨c, hsome, -, rfl⟩⟩ := splitSum_eq_ok_iff.1 h
  · exact Step.cites_same (List.infix_refl t)
  · obtain ⟨rfl, -, -⟩ := lastCut_eq_some_iff.1 hsome
    refine Step.cites_node (by split <;> decide) ?_
    intro q hq
    simp only [List.mem_cons, List.not_mem_nil, or_false] at hq
    rcases hq with rfl | rfl
    · exact (Text.trim_isPart _).trans hscan.left_isPart
    · exact (Text.trim_isPart _).trans (hscan.right_isPart (List.suffix_refl _))

theorem cites_splitProduct (h : splitProduct t = .ok s) : s.Cites t := by
  obtain ⟨ms, hscan, ⟨-, rfl⟩ | ⟨c, hsome, hop⟩⟩ := splitProduct_eq_ok_iff.1 h
  · exact Step.cites_same (List.infix_refl t)
  · obtain ⟨rfl, -, -⟩ := lastCut_eq_some_iff.1 hsome
    exact Step.cites_of_twoOperands (by split <;> decide) hscan.left_isPart
      (hscan.right_isPart (List.suffix_refl _)) hop

theorem cites_splitUnary (h : splitUnary t = .ok s) : s.Cites t := by
  have htrim := Text.trim_isPart t
  unfold splitUnary at h
  split at h
  · next rest hrest =>
    rw [hrest] at htrim
    have hpart : rest <:+: t := (List.suffix_cons _ rest).isInfix.trans htrim
    split at h
    · cases h
    · rw [← Except.ok.inj h]
      exact Step.cites_node (by decide) (List.forall_mem_singleton.2 hpart)
  · next rest hrest =>
    rw [hrest] at htrim
    rw [← Except.ok.inj h]
    exact Step.cites_same ((List.suffix_cons _ rest).isInfix.trans htrim)
  · rw [← Except.ok.inj h]
    exact Step.cites_same htrim

theorem cites_splitPower (h : splitPower t = .ok s) : s.Cites t := by
  obtain ⟨ms, hscan, ⟨-, rfl⟩ | ⟨c, hsome, hop⟩⟩ := splitPower_eq_ok_iff.1 h
  · exact Step.cites_same (List.infix_refl t)
  · obtain ⟨rfl, -, -⟩ := firstCut_eq_some_iff.1 hsome
    exact Step.cites_of_twoOperands (by decide) hscan.left_isPart
      (hscan.right_isPart (List.drop_suffix _ _)) hop

theorem cites_splitIndexed (h : splitIndexed t = .ok s) : s.Cites t := by
  have htrim := Text.trim_isPart t
  rw [splitIndexed_eq_ok_iff] at h
  split at h
  · obtain ⟨ms, hscan, ⟨-, rfl⟩ | ⟨c, hsome, -, wrapped, -, rfl⟩⟩ := h
    · exact Step.cites_same htrim
    · obtain ⟨rfl, -, -⟩ := lastCut_eq_some_iff.1 hsome
      have htarget : Text.trim c.left <:+: t :=
        (Text.trim_isPart _).trans (hscan.left_isPart.trans htrim)
      have hindex : c.right.dropLast <:+: t :=
        (List.dropLast_prefix _).isInfix.trans
          ((hscan.right_isPart (List.suffix_refl _)).trans htrim)
      cases wrapped with
      | true => exact Step.cites_index rfl htarget hindex
      | false => exact Step.cites_index rfl htarget hindex
  · rw [h]
    exact Step.cites_same htrim

/-! ## Single operands -/

theorem inside_isPart (t : List Char) : inside t <:+: t :=
  (List.dropLast_prefix _).isInfix.trans (List.drop_suffix 1 t).isInfix

/-- The column of a reference is the name that stands in it. -/
theorem cites_splitReference (hhead : t.head? = some '$') (h : splitReference t = .ok s) :
    s.Cites t := by
  obtain ⟨u, rfl, -, -, rfl⟩ := exists_reference_of_splitReference hhead h
  intro _ a ha n hn
  rw [← Except.ok.inj ha] at hn
  obtain rfl := List.mem_singleton.1 hn
  refine ⟨String.ofList u, ?_, ?_⟩
  · rw [Text.trimmed, String.toList_ofList]
  · rw [reference, String.toList_ofList]
    exact List.infix_refl _

theorem commaPieces_isPart {current : List Char} {ms : List Mark} {x : List Char}
    (hx : x ∈ commaPieces current ms) : x <:+: current.reverse ++ textOf ms := by
  induction ms generalizing current with
  | nil =>
      rw [List.mem_singleton.1 hx]
      exact (List.prefix_append _ _).isInfix
  | cons m ms ih =>
      have hrest : textOf (m :: ms) = m.char :: textOf ms := rfl
      rw [commaPieces] at hx
      split at hx
      · rcases List.mem_cons.1 hx with rfl | hx
        · exact (List.prefix_append _ _).isInfix
        · -- A later piece stands behind the comma.
          have hsuffix : textOf ms <:+ current.reverse ++ textOf (m :: ms) := by
            rw [hrest]
            exact (List.suffix_cons _ _).trans (List.suffix_append _ _)
          exact (ih hx).trans hsuffix.isInfix
      · have := ih hx
        rwa [List.reverse_cons, List.append_assoc, List.singleton_append, ← hrest] at this

theorem argumentPieces_isPart {ps : List Piece} (h : argumentPieces t = .ok ps) :
    ∀ q ∈ ps, q.text <:+: t := by
  intro q hq
  have hps := argumentPieces_eq_ok_iff.1 h
  split at hps
  · rw [hps] at hq
    cases hq
  · obtain ⟨ms, hscan, rfl⟩ := hps
    obtain ⟨x, hx, rfl⟩ := List.mem_map.1 hq
    have := commaPieces_isPart hx
    rwa [List.reverse_nil, List.nil_append, hscan.textOf_eq] at this

theorem cites_splitCall (h : splitCall t = .ok s) : s.Cites t := by
  simp only [splitCall] at h
  split at h
  · split at h
    · cases h
    · split at h
      · cases h
      · next ps hps =>
        rw [← Except.ok.inj h]
        refine Step.cites_node (by decide) fun q hq => (argumentPieces_isPart hps q hq).trans ?_
        exact (inside_isPart _).trans (List.dropWhile_suffix _).isInfix
    · cases h
  · cases h

theorem cites_splitWord (h : splitWord t = .ok s) : s.Cites t := by
  unfold splitWord at h
  split at h
  · rw [← Except.ok.inj h]
    exact Step.cites_done rfl
  · split at h
    · rw [← Except.ok.inj h]
      exact Step.cites_done rfl
    · split at h
      · rw [← Except.ok.inj h]
        exact Step.cites_done rfl
      · split at h
        · split at h
          · rw [← Except.ok.inj h]
            exact Step.cites_done rfl
          · cases h
        · exact cites_splitCall h

theorem cites_splitPrimary (h : splitPrimary t = .ok s) : s.Cites t := by
  have htrim := Text.trim_isPart t
  have hloosen : s.Cites (Text.trim t) → s.Cites t := fun hs hpieces a ha =>
    (hs hpieces a ha).mono htrim
  simp only [splitPrimary] at h
  split at h
  · cases h
  · next hhead => exact hloosen (cites_splitReference hhead h)
  · split at h
    · cases h
    · rw [← Except.ok.inj h]
      exact Step.cites_node (by decide)
        (List.forall_mem_singleton.2 ((inside_isPart _).trans htrim))
    · split at h
      · obtain ⟨-, -, -, rfl⟩ := splitText_eq_ok_iff.1 h
        exact Step.cites_done rfl
      · exact hloosen (cites_splitWord h)

end Levels

/-! ## The reader -/

theorem cites_split {l : Level} {t : List Char} {s : Step} (h : split l t = .ok s) : s.Cites t := by
  cases l with
  | expression => exact cites_splitExpression h
  | disjunction => exact cites_splitKeyword (by decide) (by decide) h
  | conjunction => exact cites_splitKeyword (by decide) (by decide) h
  | comparison => exact cites_splitComparison h
  | sum => exact cites_splitSum h
  | product => exact cites_splitProduct h
  | unary => exact cites_splitUnary h
  | power => exact cites_splitPower h
  | indexed => exact cites_splitIndexed h
  | primary => exact cites_splitPrimary h

/-- The text of a piece refers to all columns of the tree that is read from it. -/
theorem cited_of_parseAt {p : Piece} {a : Ast} (h : parseAt p = .ok a) : Cited p.text a := by
  induction hw : p.weight using Nat.strongRecOn generalizing p a with
  | ind w ih =>
      obtain ⟨s, hsplit, htree⟩ := split_of_parseAt h
      refine cites_split hsplit (fun q hq b hb => ?_) a htree
      exact ih q.weight (hw ▸ split_weight hsplit q hq) hb rfl

/-- A formula refers to every column that it reads. -/
theorem exists_mentions_of_parse {t n : String} {a : Ast} (h : parse t = .ok a)
    (hn : n ∈ a.columns) : ∃ s, Mentions t.toList n s :=
  cited_of_parseAt h n hn

end Formula

end ColumnTree
