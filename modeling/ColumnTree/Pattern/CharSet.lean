/-
# Sets of characters in patterns

A set is made of ranges and of the properties of Unicode by the operations of sets.  One that
ignores case holds a character if it holds any that differs from it in case only.
-/
import ColumnTree.Text.Age
import ColumnTree.Text.Blank
import ColumnTree.Text.Break
import ColumnTree.Text.Case
import ColumnTree.Text.Category
import ColumnTree.Text.Letters
import ColumnTree.Text.Property
import ColumnTree.Text.Runs.Algebra
import ColumnTree.Text.Script
import ColumnTree.Text.ScriptUse

namespace ColumnTree.Pattern

/-- A set of characters. -/
abbrev CharSet := Text.Runs

namespace CharSet

/-- The set with all cases of its characters; only ASCII letters have cases if `ascii`. -/
def anyCase (ascii : Bool) (a : CharSet) : CharSet :=
  let folds := if ascii then Text.asciiFolds else Text.folds
  let folded := folds.filter fun f => a.containsCode f.1 || a.containsCode f.2
  let bases : CharSet := .ofCodes (folded.map (·.1))
  let mates := folds.filter fun f => bases.containsCode f.1
  .unionAll [a, bases, .ofCodes (mates.map (·.2))]

/-! ## Sets with names -/

/-- All characters that have a general category. -/
def assigned : CharSet := .unionAll (Text.categories.map (·.runs))

/-- The characters of the categories with these two-letter names; `cn` is the category of those
that have no other. -/
def categories (short : List String) : CharSet :=
  let listed := Text.categories.filter fun k => short.contains (k.names.headD "")
  let a : CharSet := .unionAll (listed.map (·.runs))
  if short.contains "cn" then a.union assigned.complement else a

/-- White space. -/
def blank : CharSet :=
  .ofCodes ((List.range 0x3001).filter fun n => Text.isBlank (Char.ofNat n))

/-- The decimal digits of ASCII. -/
def digits : CharSet := .range '0' '9'

/-- The letters of ASCII. -/
def letters : CharSet := .union (.range 'a' 'z') (.range 'A' 'Z')

/-- The characters of words in ASCII. -/
def asciiWord : CharSet := .unionAll [digits, letters, .single '_']

/-- The characters of words: letters, marks, decimal digits, connectors and the two join
controls. -/
def word : CharSet :=
  .unionAll [asciiWord, Text.alphabeticRuns, categories ["mc", "me", "mn", "nd", "pc"],
    .range '\u200c' '\u200d']

/-- The white space of ASCII. -/
def asciiBlank : CharSet := .union (.range '\t' '\r') (.single ' ')

/-- The ASCII sets that have names between colons. -/
def asciiNamed? : String → Option CharSet
  | "alnum" => some (.union digits letters)
  | "alpha" => some letters
  | "ascii" => some (.range '\x00' '\x7f')
  | "blank" => some (.union (.single '\t') (.single ' '))
  | "cntrl" => some (.union (.range '\x00' '\x1f') (.single '\x7f'))
  | "digit" => some digits
  | "graph" => some (.range '!' '~')
  | "lower" => some (.range 'a' 'z')
  | "print" => some (.range ' ' '~')
  | "punct" =>
    some (.unionAll [.range '!' '/', .range ':' '@', .range '[' '\x60', .range '\x7b' '~'])
  | "space" => some asciiBlank
  | "upper" => some (.range 'A' 'Z')
  | "word" => some asciiWord
  | "xdigit" => some (.unionAll [digits, .range 'a' 'f', .range 'A' 'F'])
  | _ => none

/-- A name of a property without its separators, in small letters, and without `is` in front. -/
def looseName (name : List Char) : String :=
  let isPrefixed := (name.take 2).map Char.toLower == ['i', 's']
  let bare := if isPrefixed then name.drop 2 else name
  let loose := bare.filterMap fun c =>
    if c = ' ' ∨ c = '_' ∨ c = '-' ∨ 0x80 ≤ c.toNat then none else some c.toLower
  if isPrefixed && loose == ['c'] then "isc" else String.ofList loose

/-- The characters of a general category, or of one of three more classes. -/
def category? (name : String) : Option CharSet :=
  if name = "any" then some .full
  else if name = "assigned" then some assigned
  else if name = "ascii" then some (.range '\x00' '\x7f')
  else (Text.categoryNamed? name).map categories

/-- The characters of a script. -/
def script? (name : String) : Option CharSet :=
  Text.scriptNamed? name

/-- The characters that a name stands for: a property, a general category or a script.  Three names
that abbreviate properties stand for categories. -/
def named? (name : String) : Option CharSet :=
  let property :=
    if ["cf", "sc", "lc"].contains name then none
    else Text.propertyNamed? name
  property <|> category? name <|> script? name

/-- The characters with a value of a property. -/
def valued? (property value : String) : Option CharSet :=
  match property with
  | "gc" | "generalcategory" => category? value
  | "sc" | "script" => script? value
  | "scx" | "scriptextensions" => Text.usedInScript? value
  | "age" => Text.assignedIn? value
  | "gcb" | "graphemeclusterbreak" => Text.graphemeBreaks.named? value
  | "wb" | "wordbreak" => Text.wordBreaks.named? value
  | "sb" | "sentencebreak" => Text.sentenceBreaks.named? value
  | _ => none

end CharSet

end ColumnTree.Pattern
