/-
# Patterns in normal form

Functions that put patterns together.  A sequence has no sequence and nothing empty among its items,
and no two texts side by side; a choice has no choice among its alternatives.  A set of one
character is a text, and a choice between single characters, or between sets, is a set.

Alternatives that begin with the same items share them: these are matched once, in front, and what
is left over of the alternatives is chosen between.  That decides which way to match comes first.
Of `x*?b|x*?a` the alternative with `b` would come first, however many `x` it takes, while
`x*?(?:b|a)` looks for both before it takes the next `x`.
-/
import ColumnTree.Pattern.Basic

namespace ColumnTree.Pattern.Node

/-! ## Sets -/

/-- One character of a set. -/
def ofSet (unicode : Bool) (s : CharSet) : Node :=
  if s.isEmpty then set false .empty
  else match s.only? with
    | some c => text [c]
    | none => set unicode s

/-- The set of a text of one character. -/
def asSingle? : Node → Option CharSet
  | text [c] => some (.single c)
  | _ => none

/-- The set that a pattern is. -/
def asSet? : Node → Option CharSet
  | set _ s => some s
  | _ => none

/-! ## Sequences -/

/-- The items of a sequence; any other pattern is one item, and the empty one none. -/
def items : Node → List Node
  | empty => []
  | sequence a b => a :: b.items
  | a => [a]

/-- Is the pattern a sequence of several items? -/
def isSequence : Node → Bool
  | sequence _ _ => true
  | _ => false

/-- Items with the texts that stand side by side made one. -/
def joinTexts : List Node → List Node
  | [] => []
  | text a :: rest =>
    match joinTexts rest with
    | text b :: rest => text (a ++ b) :: rest
    | rest => text a :: rest
  | a :: rest => a :: joinTexts rest

/-- The sequence with these items. -/
def ofItems : List Node → Node
  | [] => empty
  | [a] => a
  | a :: rest => sequence a (ofItems rest)

/-- Patterns one after another. -/
def ofSequence (parts : List Node) : Node :=
  ofItems (joinTexts (parts.flatMap items))

/-! ## Repetitions -/

/-- A repetition.  To repeat a place more than once is to have it once. -/
def repeated (least : Nat) (most : Option Nat) (greedy : Bool) (a : Node) : Node :=
  let (least, most) :=
    if a.isPlace then (min least 1, some (min (most.getD 1) 1)) else (least, most)
  if most = some 0 then empty
  else if least = 1 ∧ most = some 1 then a
  else repetition least most greedy a

/-! ## Choices -/

/-- The alternatives of a choice; any other pattern is the only one. -/
def alternatives : Node → List Node
  | choice a b => a :: b.alternatives
  | a => [a]

/-- The choice between these alternatives; without any, nothing matches. -/
def ofAlternatives : List Node → Node
  | [] => set false .empty
  | [a] => a
  | a :: rest => choice a (ofAlternatives rest)

/-- The items that two lists begin with. -/
def sharedStart : List Node → List Node → List Node
  | a :: as, b :: bs => if a = b then a :: sharedStart as bs else []
  | _, _ => []

/-- The items that all alternatives begin with, each of them being a sequence. -/
def sharedItems (all : List Node) : List Node :=
  match all with
  | [] => []
  | first :: rest =>
    if all.all isSequence then rest.foldl (fun start a => sharedStart start a.items) first.items
    else []

/-- The set of the characters that the alternatives are, if each is one character, or if each is a
set. -/
def commonSet? (all : List Node) : Option CharSet :=
  (all.mapM asSingle? <|> all.mapM asSet?).map .unionAll

/-- A choice between patterns; `fuel` bounds how many times over they can share a beginning. -/
def chosen : Nat → List Node → Node
  | 0, all => ofAlternatives all
  | fuel + 1, all =>
    let all := all.flatMap alternatives
    match commonSet? all, sharedItems all with
    | some s, _ => ofSet true s
    | none, [] => ofAlternatives all
    | none, start =>
      let rests := all.map fun a => ofSequence (a.items.drop start.length)
      ofSequence (start ++ [chosen fuel rests])

/-- How many parts a pattern has. -/
def size : Node → Nat
  | empty | text _ | set _ _ | look _ => 1
  | sequence a b | choice a b => a.size + b.size + 1
  | repetition _ _ _ a | group _ a => a.size + 1

/-- A choice between patterns. -/
def ofChoices : List Node → Node
  | [a] => a
  | all => chosen (all.foldl (fun n a => n + a.size) 0) all

end ColumnTree.Pattern.Node
