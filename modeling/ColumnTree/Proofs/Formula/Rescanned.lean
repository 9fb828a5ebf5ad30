/-
# What is scanned again

Every level of the grammar scans its text from the beginning, and nothing of what the scanner knew about
the text around it is handed on.  Nothing of it is needed: at each place where a text is divided the
scanner is in plain text, outside all brackets, and behind an operator it is in the state that it
starts in.  So both sides of an operator are accepted with the very marks that they had in the whole
text (`Scans.sides`), and what stands in a bracket is accepted as well.

`rescans_of_scan` says so of all places at which a text may be divided, and of all pieces that
the reader makes of it.
-/
import ColumnTree.Proofs.Formula.Contained
import ColumnTree.Proofs.Formula.Grouped

namespace ColumnTree.Formula

/-! ## Operators -/

/-- An operator or a comma stands at a cut, and these marks behind it. -/
inductive Cut.Divides (c : Cut) : List Mark → Prop where
  | keyword {word : String} {rest : List Mark} : word ∈ ["or", "and"] →
      c.afterKeyword? word.toList = some rest → c.Divides rest
  | comparison {tag : Tag} {rest : List Mark} : c.isTop ['<', '>', '=', '!'] = true →
      c.comparison? = some (tag, rest) → c.Divides rest
  | sum : c.isBinarySign = true → c.Divides c.after
  | product : c.isProductSign = true → c.Divides c.after
  | power : c.isPowerSign = true → c.Divides (c.after.drop 1)
  | comma : c.isTop [','] = true → c.Divides c.after

/-- An operator is made of ordinary characters, and the first of them is on top. -/
theorem Cut.Divides.exists_word {c : Cut} {rest : List Mark} (h : c.Divides rest) :
    c.mark.top = true ∧ ∃ w, c.after = w ++ rest ∧ ∀ n ∈ c.mark :: w, Ordinary n.char := by
  have hsingle : ∀ {chars : List Char}, (∀ a ∈ chars, Ordinary a) →
      c.mark.top = true ∧ c.mark.char ∈ chars → c.mark.top = true ∧
        ∃ w, c.after = w ++ c.after ∧ ∀ n ∈ c.mark :: w, Ordinary n.char := by
    rintro chars hchars ⟨htop, hchar⟩
    exact ⟨htop, [], rfl, List.forall_mem_singleton.2 (hchars _ hchar)⟩
  cases h with
  | @keyword word _ hword hrest =>
      obtain ⟨htop, -, ⟨ws, hws, hchars⟩, -⟩ := Cut.afterKeyword?_eq_some_iff.1 hrest
      have hord : ∀ a ∈ word.toList, Ordinary a :=
        (by decide : ∀ w ∈ ["or", "and"], ∀ a ∈ w.toList, Ordinary a) word hword
      cases ws with
      | nil =>
          exact absurd hchars.symm
            ((by decide : ∀ w ∈ ["or", "and"], w.toList ≠ []) word hword)
      | cons m ws =>
          obtain ⟨rfl, hafter⟩ := List.cons.inj hws
          refine ⟨htop, ws, hafter, fun n hn => hord _ ?_⟩
          rw [← hchars]
          exact List.mem_map_of_mem hn
  | comparison htop htag =>
      obtain ⟨htop, hchar⟩ := Cut.isTop_iff.1 htop
      obtain ⟨-, w, hafter, hw⟩ := comparison?_eq_some htag
      refine ⟨htop, w, hafter, List.forall_mem_cons.2 ⟨?_, fun n hn => ?_⟩⟩
      · exact (by decide : ∀ a ∈ ['<', '>', '=', '!'], Ordinary a) _ hchar
      · rw [hw n hn]
        decide
  | sum h => exact hsingle (by decide) (Level.mem_of_isCut (l := .sum) h)
  | product h => exact hsingle (by decide) (Level.mem_of_isCut (l := .product) h)
  | power h =>
      obtain ⟨htop, n, hafter, hstars⟩ := exists_of_isPowerSign h
      refine ⟨htop, [n], hafter, fun k hk => ?_⟩
      rw [hstars k hk]
      decide
  | comma h => exact hsingle (by decide) (Cut.isTop_iff.1 h)

namespace Scans

variable {t : List Char}

/-- Both sides of an operator are scanned alone as they were in the whole text. -/
theorem sides {b w rest : List Mark} {m : Mark} (h : Scans t (b ++ m :: (w ++ rest)))
    (htop : m.top = true) (hw : ∀ n ∈ m :: w, Ordinary n.char) :
    Scans (textOf b) b ∧ Scans (textOf rest) rest := by
  obtain ⟨d, hreads⟩ := h
  obtain ⟨d', hleft, hright⟩ :=
    hreads.before_top trivial htop (hw m (List.mem_cons_self ..)).ne_close
  exact ⟨⟨d', hleft⟩, d, hright.after_ordinary hw⟩

theorem exists_scan {ms : List Mark} (h : Scans t (ms.map Mark.unplaced)) :
    ∃ ns, scan t = .ok ns ∧ ns.map (·.top) = ms.map (·.top) := by
  obtain ⟨ns, hns, heq⟩ := iff_scan.1 h
  refine ⟨ns, hns, ?_⟩
  have htops := congrArg (List.map (·.top)) heq
  rwa [List.map_map, List.map_map] at htops

end Scans

/-! ## Texts that are accepted -/

/-- The scanner accepts a text. -/
def Scannable (t : List Char) : Prop :=
  ∃ ms, Scans t ms

theorem scannable_iff {t : List Char} : Scannable t ↔ ∃ ms, scan t = .ok ms := by
  constructor
  · rintro ⟨ms, h⟩
    obtain ⟨ns, hns, -⟩ := Scans.iff_scan.1 h
    exact ⟨ns, hns⟩
  · rintro ⟨ms, h⟩
    exact ⟨_, .of_scan h⟩

theorem Scannable.trim {t : List Char} (h : Scannable t) : Scannable (Text.trim t) := by
  obtain ⟨ms, d, hreads⟩ := h
  obtain ⟨_, ms', _, -, -, -, hscan⟩ := hreads.trim
  exact ⟨ms', hscan⟩

theorem Scannable.tail {c : Char} {t : List Char} (h : Scannable (c :: t)) (hc : Ordinary c) :
    Scannable t := by
  obtain ⟨ms, d, hreads⟩ := h
  cases hreads with
  | cons hstep hrest =>
      obtain ⟨rfl, -⟩ :=
        Prod.mk.inj (Except.ok.inj (hstep.symm.trans (ScanState.step_ordinary hc false [] 0)))
      exact ⟨_, d, hrest⟩

/-! ## Where a text in brackets ends -/

namespace ScanState

/-- A closing bracket at the end of a text is on top, and a square one closes a square one. -/
theorem of_closing_at_end {s : ScanState} {o : Nat} {c : Char} {d top : Bool} (hs : s.Proper)
    (hc : c ∈ [')', ']']) (h : s.step o c = .ok (⟨.plain d, []⟩, top)) :
    top = true ∧ (c = ']' → s.stack = ['[']) := by
  obtain ⟨mode, stack⟩ := s
  cases mode with
  | name depth =>
      rw [step_name] at h
      split at h
      · next hd =>
        obtain ⟨heq, rfl⟩ := Prod.mk.inj (Except.ok.inj h)
        obtain ⟨-, rfl⟩ := ScanState.mk.inj heq
        refine ⟨rfl, ?_⟩
        rintro rfl
        exact absurd hd hs
      · cases h
  | quoted quote escaped =>
      have hne : c ≠ quote := by
        rintro rfl
        rcases hs with rfl | rfl <;> simp at hc
      simp only [step, if_neg hne] at h
      repeat' split at h
      all_goals cases h
  | plain d' =>
      cases stack with
      | nil =>
          simp only [List.mem_cons, List.not_mem_nil, or_false] at hc
          rcases hc with rfl | rfl <;> simp [step, stepPlain] at h
      | cons b rest =>
          rw [step_closing hc] at h
          split at h
          · next hb =>
            obtain ⟨heq, rfl⟩ := Prod.mk.inj (Except.ok.inj h)
            obtain ⟨-, rfl⟩ := ScanState.mk.inj heq
            refine ⟨rfl, ?_⟩
            rintro rfl
            exact congrArg (fun a => [a]) hb
          · cases h

/-- The outermost bracket is a square one only if one was opened on top. -/
theorem getLast?_stack_step {s s' : ScanState} {o : Nat} {c : Char} {top : Bool}
    (h : s.step o c = .ok (s', top)) (hc : top = true → c ≠ '[')
    (hs : s.stack.getLast? ≠ some '[') : s'.stack.getLast? ≠ some '[' := by
  obtain ⟨mode, stack⟩ := s
  cases mode with
  | name depth =>
      rw [step_name] at h
      split at h <;>
      · obtain ⟨rfl, -⟩ := Prod.mk.inj (Except.ok.inj h)
        exact hs
  | quoted quote escaped =>
      simp only [step] at h
      repeat' split at h
      all_goals
        obtain ⟨rfl, -⟩ := Prod.mk.inj (Except.ok.inj h)
        exact hs
  | plain d =>
      simp only [step, stepPlain] at h
      repeat' split at h
      case isFalse.isFalse.isTrue =>
        obtain ⟨rfl, rfl⟩ := Prod.mk.inj (Except.ok.inj h)
        cases stack with
        | nil => simpa using hc rfl
        | cons b rest => rwa [List.getLast?_cons_cons]
      case h_1.isTrue =>
        obtain ⟨rfl, -⟩ := Prod.mk.inj (Except.ok.inj h)
        next rest _ =>
        cases rest with
        | nil => exact (Option.some_ne_none '[').symm
        | cons b rest => rwa [List.getLast?_cons_cons] at hs
      all_goals
        first
        | obtain ⟨rfl, -⟩ := Prod.mk.inj (Except.ok.inj h)
          exact hs
        | cases h

end ScanState

namespace Reads

theorem getLast?_stack {s s' : ScanState} {x : List Char} {ms : List Mark} (h : Reads s x ms s')
    (hms : ∀ m ∈ ms, m.top = true → m.char ≠ '[') (hs : s.stack.getLast? ≠ some '[') :
    s'.stack.getLast? ≠ some '[' := by
  induction h with
  | nil => exact hs
  | cons hstep _ ih =>
      obtain ⟨hm, hms⟩ := List.forall_mem_cons.1 hms
      exact ih hms (ScanState.getLast?_stack_step hstep hm hs)

theorem exists_last {s s' : ScanState} {x : List Char} {c : Char} {ms : List Mark}
    (h : Reads s (x ++ [c]) ms s') :
    ∃ ks t top, ms = ks ++ [.of c top] ∧ Reads s x ks t ∧ t.step 0 c = .ok (s', top) := by
  obtain ⟨ks, t, _, rfl, hks, hlast⟩ := h.cut_text
  cases hlast with
  | cons hstep hnil =>
      cases hnil
      exact ⟨ks, t, _, rfl, hks, hstep⟩

/-- A text between brackets is accepted, unless the first of them is closed before the last one. -/
theorem scannable_inside {b c : Char} {y : List Char} {ms : List Mark} {d : Bool}
    (h : Reads ⟨.plain false, [b]⟩ (y ++ [c]) ms ⟨.plain d, []⟩)
    (hlast : ∀ is a ks x, ms = is ++ .of a true :: ks →
      ¬ Reads .start (x ++ [c]) ks ⟨.plain d, []⟩) : Scannable y := by
  obtain ⟨inner, a, rest, ns, e, ks, heq, hns, -, -, rfl, hks⟩ :=
    Reads.exists_close (s := .start) h (Nat.le_refl _)
  rcases List.eq_nil_or_concat rest with rfl | ⟨x, c', rfl⟩
  · obtain ⟨rfl, -⟩ := List.append_inj' heq rfl
    exact ⟨ns, e, hns⟩
  · rw [List.concat_eq_append] at heq hks
    rw [← List.cons_append, ← List.append_assoc] at heq
    obtain ⟨-, hc⟩ := List.append_inj' heq rfl
    obtain rfl := List.singleton_inj.1 hc
    exact absurd hks (hlast _ a ks x rfl)

end Reads

/-- What stands in parentheses is accepted. -/
theorem scannable_of_isWrapped {t : List Char} (h : isWrapped t = .ok true) :
    Scannable (inside t) := by
  obtain ⟨y, rfl⟩ := eq_of_isWrapped h
  rw [isWrapped_eq_ok_iff, if_pos ⟨rfl, List.getLast?_concat⟩] at h
  obtain ⟨ms, ⟨d, hreads⟩, htops⟩ := h
  rw [List.cons_append, inside_cons_append]
  have hopen : ScanState.start.step 0 '(' = .ok (⟨.plain false, ['(']⟩, true) := rfl
  cases hreads with
  | cons hstep hrest =>
      obtain ⟨rfl, rfl⟩ := Prod.mk.inj (Except.ok.inj (hstep.symm.trans hopen))
      refine hrest.scannable_inside ?_
      rintro is a ks x rfl hks
      -- With the last character a third one would be on top.
      obtain ⟨ks, t, top, rfl, hx, hlast⟩ := hks.exists_last
      obtain ⟨rfl, -⟩ := ScanState.of_closing_at_end (hx.proper trivial) (by decide) hlast
      have hlength := beq_iff_eq.1 htops.symm
      rw [List.filter_cons_of_pos rfl, List.filter_append, List.filter_cons_of_pos rfl,
        List.filter_append, List.filter_cons_of_pos rfl] at hlength
      simp only [List.length_cons, List.length_append] at hlength
      omega

/-- What stands in the last brackets on top is accepted, if a bracket ends the text. -/
theorem scannable_of_lastCut {t : List Char} {ms : List Mark} {c : Cut} (hscan : Scans t ms)
    (hcut : lastCut (·.isTop ['[']) ms = some c) (hlast : t.getLast? = some ']') :
    Scannable c.left ∧ Scannable c.right.dropLast := by
  obtain ⟨rfl, hc, hclear⟩ := lastCut_eq_some_iff.1 hcut
  obtain ⟨htop, hchar⟩ := Cut.isTop_iff.1 hc
  obtain hchar : c.mark.char = '[' := List.mem_singleton.1 hchar
  have hright : c.right = c.right.dropLast ++ [']'] :=
    hscan.right_eq hlast (by rw [hchar]; decide)
  obtain ⟨d, hreads⟩ := hscan
  obtain ⟨d', hleft, hrest⟩ := hreads.before_top trivial htop (by rw [hchar]; decide)
  refine ⟨⟨_, d', hleft⟩, ?_⟩
  obtain ⟨s, hstep, hinner⟩ := hrest.head
  rw [hchar, ScanState.step_square] at hstep
  obtain ⟨rfl, -⟩ := Prod.mk.inj (Except.ok.inj hstep)
  change Reads _ c.right _ _ at hinner
  rw [hright] at hinner
  refine hinner.scannable_inside fun is a ks x hafter hks => ?_
  -- The last bracket would close one that was opened behind the last cut.
  obtain ⟨ks, t, top, rfl, hx, hend⟩ := hks.exists_last
  obtain ⟨-, hstack⟩ := ScanState.of_closing_at_end (hx.proper trivial) (by decide) hend
  refine hx.getLast?_stack (fun m hm htop heq => ?_) (by decide) (by rw [hstack rfl]; rfl)
  obtain ⟨k, l, rfl⟩ := List.append_of_mem hm
  have hclear := hclear (is ++ .of a true :: k) m (l ++ [.of ']' top]) (by simp [hafter])
  rw [← Bool.not_eq_true] at hclear
  exact hclear (Cut.isTop_iff.2 ⟨htop, List.mem_singleton.2 heq⟩)

/-! ## Pieces -/

/-- All pieces of a step are accepted. -/
def Step.Accepted (s : Step) : Prop :=
  ∀ q ∈ s.pieces, Scannable q.text

namespace Step

variable {t : List Char} {q : Piece}

theorem accepted_same (h : Scannable q.text) : (same q).Accepted :=
  List.forall_mem_singleton.2 h

theorem accepted_of_pieces_eq_nil {s : Step} (h : s.pieces = []) : s.Accepted := by
  intro q hq
  rw [h] at hq
  cases hq

/-- The operands of an operator. -/
theorem accepted_operator {tag : Tag} {left right : Level} {c : Cut} {rest : List Mark}
    (hscan : Scans t (c.before.reverse ++ c.mark :: c.after)) (hc : c.Divides rest) :
    (node tag [] [⟨left, Text.trim c.left⟩, ⟨right, Text.trim (textOf rest)⟩]).Accepted := by
  obtain ⟨htop, w, hafter, hw⟩ := hc.exists_word
  rw [hafter] at hscan
  obtain ⟨hleft, hright⟩ := hscan.sides htop hw
  exact List.forall_mem_cons.2 ⟨Scannable.trim ⟨_, hleft⟩,
    List.forall_mem_singleton.2 (Scannable.trim ⟨_, hright⟩)⟩

end Step

section Levels

variable {t : List Char} {s : Step}

theorem accepted_splitExpression (ht : Scannable t) (h : splitExpression t = .ok s) :
    s.Accepted := by
  unfold splitExpression at h
  split at h
  · cases h
  · rw [← Except.ok.inj h]
    exact Step.accepted_same ht.trim

theorem accepted_splitKeyword {word : String} {tag : Tag} {this next : Level} (ht : Scannable t)
    (hword : word ∈ ["or", "and"]) (h : splitKeyword word tag this next t = .ok s) :
    s.Accepted := by
  obtain ⟨ms, hscan, ⟨-, rfl⟩ | ⟨c, hsome, hop⟩⟩ := splitKeyword_eq_ok_iff.1 h
  · exact Step.accepted_same ht
  · obtain ⟨rfl, hc, -⟩ := lastCut_eq_some_iff.1 hsome
    obtain ⟨rest, hrest⟩ := Option.isSome_iff_exists.1 hc
    rw [hrest] at hop
    obtain ⟨-, -, rfl⟩ := twoOperands_eq_ok_iff.1 hop
    exact Step.accepted_operator hscan (.keyword hword hrest)

theorem accepted_splitComparison (ht : Scannable t) (h : splitComparison t = .ok s) :
    s.Accepted := by
  obtain ⟨ms, hscan, ⟨-, rfl⟩ | ⟨c, hsome, tag, rest, htag, hop⟩⟩ := splitComparison_eq_ok_iff.1 h
  · exact Step.accepted_same ht
  · obtain ⟨rfl, hc, -⟩ := firstCut_eq_some_iff.1 hsome
    obtain ⟨-, -, rfl⟩ := twoOperands_eq_ok_iff.1 hop
    exact Step.accepted_operator hscan (.comparison hc htag)

theorem accepted_splitSum (ht : Scannable t) (h : splitSum t = .ok s) : s.Accepted := by
  obtain ⟨ms, hscan, ⟨-, rfl⟩ | ⟨c, hsome, -, rfl⟩⟩ := splitSum_eq_ok_iff.1 h
  · exact Step.accepted_same ht
  · obtain ⟨rfl, hc, -⟩ := lastCut_eq_some_iff.1 hsome
    exact Step.accepted_operator hscan (.sum hc)

theorem accepted_splitProduct (ht : Scannable t) (h : splitProduct t = .ok s) : s.Accepted := by
  obtain ⟨ms, hscan, ⟨-, rfl⟩ | ⟨c, hsome, hop⟩⟩ := splitProduct_eq_ok_iff.1 h
  · exact Step.accepted_same ht
  · obtain ⟨rfl, hc, -⟩ := lastCut_eq_some_iff.1 hsome
    obtain ⟨-, -, rfl⟩ := twoOperands_eq_ok_iff.1 hop
    exact Step.accepted_operator hscan (.product hc)

theorem accepted_splitUnary (ht : Scannable t) (h : splitUnary t = .ok s) : s.Accepted := by
  have htrim := ht.trim
  unfold splitUnary at h
  split at h
  · next rest heq =>
    rw [heq] at htrim
    split at h
    · cases h
    · rw [← Except.ok.inj h]
      exact List.forall_mem_singleton.2 (htrim.tail (by decide))
  · next rest heq =>
    rw [heq] at htrim
    rw [← Except.ok.inj h]
    exact Step.accepted_same (htrim.tail (by decide))
  · rw [← Except.ok.inj h]
    exact Step.accepted_same htrim

theorem accepted_splitPower (ht : Scannable t) (h : splitPower t = .ok s) : s.Accepted := by
  obtain ⟨ms, hscan, ⟨-, rfl⟩ | ⟨c, hsome, hop⟩⟩ := splitPower_eq_ok_iff.1 h
  · exact Step.accepted_same ht
  · obtain ⟨rfl, hc, -⟩ := firstCut_eq_some_iff.1 hsome
    obtain ⟨-, -, rfl⟩ := twoOperands_eq_ok_iff.1 hop
    exact Step.accepted_operator hscan (.power hc)

theorem accepted_splitIndexed (ht : Scannable t) (h : splitIndexed t = .ok s) : s.Accepted := by
  rw [splitIndexed_eq_ok_iff] at h
  split at h
  · next hlast =>
    obtain ⟨ms, hscan, ⟨-, rfl⟩ | ⟨c, hsome, -, wrapped, -, rfl⟩⟩ := h
    · exact Step.accepted_same ht.trim
    · obtain ⟨htarget, hindex⟩ := scannable_of_lastCut hscan hsome hlast
      cases wrapped <;>
      exact List.forall_mem_cons.2 ⟨hindex, List.forall_mem_singleton.2 htarget.trim⟩
  · rw [h]
    exact Step.accepted_same ht.trim

/-- The texts between commas on top.  The scanner has gone through the text since the last one. -/
theorem Reads.scannable_commaPieces {current x : List Char} {ks ms : List Mark} {r : ScanState}
    {d : Bool} (hcurrent : Reads .start current.reverse ks r)
    (h : Reads r (textOf ms) ms ⟨.plain d, []⟩) (hx : x ∈ commaPieces current ms) :
    Scannable x := by
  induction ms generalizing current ks r with
  | nil =>
      cases h
      rw [List.mem_singleton.1 hx]
      exact ⟨ks, d, hcurrent⟩
  | cons m ms ih =>
      obtain ⟨r', hstep, hrest⟩ := h.head
      rw [commaPieces] at hx
      split at hx
      · next hcomma =>
        obtain ⟨htop, hchar⟩ := Bool.and_eq_true_iff.1 hcomma
        have hord : Ordinary m.char := by
          rw [beq_iff_eq.1 hchar]
          decide
        rw [htop] at hstep
        obtain ⟨e, rfl⟩ :=
          ScanState.eq_plain_of_top (hcurrent.proper trivial) hord.ne_close hstep
        rw [ScanState.step_ordinary hord] at hstep
        obtain ⟨rfl, -⟩ := Prod.mk.inj (Except.ok.inj hstep)
        rcases List.mem_cons.1 hx with rfl | hx
        · exact ⟨ks, e, hcurrent⟩
        · exact ih (show Reads .start ([] : List Char).reverse [] _ from .nil) hrest hx
      · have hnext : Reads .start (m.char :: current).reverse (ks ++ [.of m.char m.top]) r' := by
          rw [List.reverse_cons]
          exact hcurrent.append (.single hstep)
        exact ih hnext hrest hx

theorem accepted_splitCall (h : splitCall t = .ok s) : s.Accepted := by
  simp only [splitCall] at h
  split at h
  · split at h
    · cases h
    · split at h
      · cases h
      · next pieces hargs =>
        rw [← Except.ok.inj h]
        intro q hq
        rw [argumentPieces_eq_ok_iff] at hargs
        split at hargs
        · rw [hargs] at hq
          cases hq
        · obtain ⟨ms, ⟨d, hreads⟩, rfl⟩ := hargs
          obtain ⟨x, hx, rfl⟩ := List.mem_map.1 hq
          rw [← hreads.textOf_eq] at hreads
          have hstart : Reads .start ([] : List Char).reverse [] .start := .nil
          exact hstart.scannable_commaPieces hreads hx
    · cases h
  · cases h

theorem accepted_splitWord (h : splitWord t = .ok s) : s.Accepted := by
  have hdone : ∀ {a : Ast}, Except.ok (.done a) = (.ok s : Except SyntaxFault Step) →
      s.Accepted := by
    intro a ha
    obtain rfl := Except.ok.inj ha
    exact Step.accepted_of_pieces_eq_nil rfl
  unfold splitWord at h
  repeat' split at h
  all_goals
    first
    | exact hdone h
    | cases h
    | exact accepted_splitCall h

theorem accepted_splitPrimary (h : splitPrimary t = .ok s) : s.Accepted := by
  simp only [splitPrimary] at h
  split at h
  · cases h
  · exact Step.accepted_of_pieces_eq_nil (pieces_splitReference h)
  · split at h
    · cases h
    · next hwrapped =>
      rw [← Except.ok.inj h]
      exact List.forall_mem_singleton.2 (scannable_of_isWrapped hwrapped)
    · split at h
      · exact Step.accepted_of_pieces_eq_nil (pieces_splitText h)
      · exact accepted_splitWord h

end Levels

/-- All pieces of a text that is accepted are accepted. -/
theorem accepted_split {l : Level} {t : List Char} {s : Step} (ht : Scannable t)
    (h : split l t = .ok s) : s.Accepted := by
  cases l with
  | expression => exact accepted_splitExpression ht h
  | disjunction => exact accepted_splitKeyword ht (by decide) h
  | conjunction => exact accepted_splitKeyword ht (by decide) h
  | comparison => exact accepted_splitComparison ht h
  | sum => exact accepted_splitSum ht h
  | product => exact accepted_splitProduct ht h
  | unary => exact accepted_splitUnary ht h
  | power => exact accepted_splitPower ht h
  | indexed => exact accepted_splitIndexed ht h
  | primary => exact accepted_splitPrimary h

/-! ## All places where a text is divided -/

/-- The parts of a text with these marks are accepted when they are scanned again. -/
structure Rescans (t : List Char) (marks : List Mark) : Prop where
  /-- Both sides of an operator or a comma are, with the same characters on top. -/
  sides : ∀ c ∈ cuts marks, ∀ rest, c.Divides rest →
    (∃ ms, scan c.left = .ok ms ∧ ms.map (·.top) = c.before.reverse.map (·.top)) ∧
      ∃ ms, scan (textOf rest) = .ok ms ∧ ms.map (·.top) = rest.map (·.top)
  /-- So is what stands in front of a square bracket on top, and what stands in it. -/
  index : ∀ c ∈ cuts marks, c.isTop ['['] = true → (∃ ms, scan c.left = .ok ms) ∧
    ∃ inner rest, c.right = inner ++ ']' :: rest ∧ Group [] c.left '[' inner ']' ∧
      ∃ ms, scan inner = .ok ms
  /-- Every bracket that is opened is closed by one of its kind. -/
  group : ∀ x b y outer, t = x ++ b :: y → Opens x b outer →
    ∃ inner c rest, y = inner ++ c :: rest ∧ c ∈ [')', ']'] ∧ b = opening c ∧
      Group outer x b inner c
  /-- What stands in the brackets of a group is accepted, however deep they are. -/
  inside : ∀ outer x b inner c rest, t = x ++ b :: (inner ++ c :: rest) →
    Group outer x b inner c → ∃ ms, scan inner = .ok ms
  /-- So are the pieces that the reader makes of the text, at any level. -/
  pieces : ∀ l s, split l t = .ok s → ∀ q ∈ s.pieces, ∃ ms, scan q.text = .ok ms

theorem Scans.of_mem_cuts {t : List Char} {marks : List Mark} {c : Cut} (h : scan t = .ok marks)
    (hc : c ∈ cuts marks) :
    Scans t (c.before.reverse.map Mark.unplaced ++
      c.mark.unplaced :: c.after.map Mark.unplaced) := by
  obtain ⟨x, m, y, rfl, rfl⟩ := mem_cutsFrom.1 hc
  have hscan := Scans.of_scan h
  rw [List.map_append, List.map_cons] at hscan
  simpa using hscan

/-- A text that is accepted may be divided anywhere. -/
theorem rescans_of_scan {t : List Char} {marks : List Mark} (h : scan t = .ok marks) :
    Rescans t marks where
  sides := by
    intro c hc rest hrest
    obtain ⟨htop, w, hafter, hw⟩ := hrest.exists_word
    have hscan := Scans.of_mem_cuts h hc
    rw [hafter, List.map_append] at hscan
    have hord : ∀ n ∈ c.mark.unplaced :: w.map Mark.unplaced, Ordinary n.char := by
      rw [← List.map_cons]
      exact List.forall_mem_map.2 hw
    obtain ⟨hleft, hright⟩ := hscan.sides htop hord
    rw [textOf_unplaced] at hleft hright
    exact ⟨hleft.exists_scan, hright.exists_scan⟩
  index := by
    intro c hc hbracket
    obtain ⟨htop, hchar⟩ := Cut.isTop_iff.1 hbracket
    obtain hchar : c.mark.char = '[' := List.mem_singleton.1 hchar
    have hscan := Scans.of_mem_cuts h hc
    have htext : t = c.left ++ '[' :: c.right := by
      rw [← hscan.textOf_eq, textOf_append, textOf_unplaced, ← hchar]
      simp [Cut.left, Cut.right, textOf]
    obtain ⟨d, hreads⟩ := hscan
    obtain ⟨d', hleft, -⟩ := hreads.before_top trivial htop
      (by rw [Mark.char_unplaced, hchar]; decide)
    rw [textOf_unplaced] at hleft
    rw [htext] at hreads
    obtain ⟨inner, a, rest, hright, ha, hkind, hgroup⟩ :=
      Opens.exists_group ⟨_, d', hleft, .inl rfl⟩ ⟨d, hreads⟩
    obtain rfl : a = ']' := by
      simp only [List.mem_cons, List.not_mem_nil, or_false] at ha
      rcases ha with rfl | rfl
      · cases hkind
      · rfl
    exact ⟨scannable_iff.1 ⟨_, d', hleft⟩, inner, rest, hright, hgroup,
      scannable_iff.1 hgroup.exists_scans⟩
  group := by
    rintro x b y outer rfl hopens
    exact hopens.exists_group (.of_scan h)
  inside := fun _ _ _ _ _ _ _ hgroup => scannable_iff.1 hgroup.exists_scans
  pieces := fun _ _ hsplit q hq =>
    scannable_iff.1 (accepted_split (scannable_iff.2 ⟨marks, h⟩) hsplit q hq)

/-- The text has a reference, an index, and in it a bracket that is quoted. -/
theorem rescans_of_scan_index : ∃ marks, scan "$(a)[(')')] + 1".toList = .ok marks ∧
    Rescans "$(a)[(')')] + 1".toList marks :=
  ⟨_, rfl, rescans_of_scan rfl⟩

end ColumnTree.Formula
