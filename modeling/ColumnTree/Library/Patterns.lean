/-
# Functions of texts with patterns

A pattern that is no regular expression gives nothing.
-/
import ColumnTree.Library.Strings
import ColumnTree.Pattern.Replacement

namespace ColumnTree.Library.Patterns

open Pattern (Regex)

/-- The first match of a pattern and the texts of its groups, as a list. -/
def firstMatch (args : List Cell) : Cell :=
  let found := do (← Regex.read? (Argument.text args 1)).firstMatch? (Argument.text args 0)
  match found with
  | some groups => .list (groups.map fun g => (g.map Strings.cell).getD .null)
  | none => .null

/-- The text with all matches of a pattern replaced. -/
def replaceAll (args : List Cell) : Cell :=
  match Regex.read? (Argument.text args 1) with
  | some r => Strings.cell (r.replaceAll (Argument.text args 0) (Argument.text args 2))
  | none => .null

/-- The functions with patterns. -/
def routines : List Routine := [
  ⟨"match", [2], "match(s, pattern)", "Regex capture groups of the first match", .string,
    firstMatch⟩,
  ⟨"regexp_replace", [3], "regexp_replace(s, pattern, replacement)", "Replace every regex match",
    .string, replaceAll⟩]

end ColumnTree.Library.Patterns
