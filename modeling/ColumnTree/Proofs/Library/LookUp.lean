/-
# What is found in a library

A function that is put into a library is found under its name, and nothing else changes; so of the
functions that a library is made of, the last one of a name is found (`find?_ofList`).
-/
import ColumnTree.Library.Standard
import ColumnTree.Proofs.Formula.Compiled

namespace ColumnTree.Library

theorem find?_place (f : Routine) (fs : List Routine) (name : String) :
    (place f fs).find? (·.name == name) =
      if f.name = name then some f else fs.find? (·.name == name) := by
  induction fs with
  | nil => by_cases hf : f.name = name <;> simp [place, hf]
  | cons g fs ih =>
      rw [place]
      split
      · by_cases hf : f.name = name <;> simp [hf]
      · split
        · next heq =>
          -- The function that is replaced has the same name.
          by_cases hf : f.name = name
          · simp [hf]
          · have hg : g.name ≠ name := heq ▸ hf
            simp [hf, hg]
        · next hne =>
          by_cases hg : g.name = name
          · have hf : f.name ≠ name := fun hf => hne (hf.trans hg.symm)
            simp [hg, hf]
          · rw [List.find?_cons_of_neg (by simpa using hg), ih,
              List.find?_cons_of_neg (by simpa using hg)]

theorem find?_insert (l : Library) (f : Routine) (name : String) :
    (l.insert f).find? name = if f.name = name then some f else l.find? name :=
  find?_place f l.routines name

theorem find?_foldl_insert (l : Library) (fs : List Routine) (name : String) :
    (fs.foldl insert l).find? name = (fs.reverse.find? (·.name == name)).or (l.find? name) := by
  induction fs generalizing l with
  | nil => rfl
  | cons f fs ih =>
      rw [List.foldl_cons, ih, find?_insert, List.reverse_cons, List.find?_append, Option.or_assoc]
      by_cases hf : f.name = name <;> simp [hf]

/-- Of functions with one name the last one is found. -/
theorem find?_ofList (fs : List Routine) (name : String) :
    (ofList fs).find? name = fs.reverse.find? (·.name == name) := by
  rw [ofList, find?_foldl_insert]
  exact Option.or_none

/-- Of the standard functions those of texts are found if none of patterns or dates has their name. -/
theorem find?_standard {now : Calendar.Moment} {name : String} {f : Routine}
    (hf : Strings.routines.reverse.find? (·.name == name) = some f)
    (hpatterns : Patterns.routines.reverse.find? (·.name == name) = none)
    (hdates : (Dates.routines now).reverse.find? (·.name == name) = none) :
    (standard now).find? name = some f := by
  rw [standard, find?_ofList]
  simp only [List.reverse_append, List.find?_append, hdates, hpatterns, hf, Option.none_or,
    Option.some_or]

/-- The standard function `string` gives the text of its argument. -/
theorem exists_resolve_string (now : Calendar.Moment) : ∃ f, (standard now).resolve "string" = .ok f ∧
    ∀ c, f.apply [c] = .text c.toText := by
  obtain ⟨f, hf, happly⟩ : ∃ f, Strings.routines.reverse.find? (·.name == "string") = some f ∧
      ∀ c, f.apply [c] = .text c.toText := ⟨_, rfl, fun _ => rfl⟩
  exact ⟨f, resolve_eq_ok_iff.2 (find?_standard hf rfl rfl), happly⟩

end ColumnTree.Library
