/-
# Patterns

A pattern is what a regular expression means: characters, places, sequences, choices, repetitions
and groups.  Of several ways to match, the earlier alternative and the longer (or, if lazy, the
shorter) repetition come first.

Patterns are put together by the functions of the module `Pattern/Normal`, which give one form to
what can be written in several ways.
-/
import ColumnTree.Pattern.CharSet

namespace ColumnTree.Pattern

/-- Conditions on a place between two characters. -/
inductive Look where
  | textStart
  | textEnd
  /-- The start of a line; with `crlf`, lines end in a carriage return as well. -/
  | lineStart (crlf : Bool)
  | lineEnd (crlf : Bool)
  | wordBoundary (ascii : Bool)
  | noWordBoundary (ascii : Bool)
  | wordStart (ascii : Bool)
  | wordEnd (ascii : Bool)
  /-- No character of a word before. -/
  | wordStartHalf (ascii : Bool)
  /-- No character of a word after. -/
  | wordEndHalf (ascii : Bool)
deriving DecidableEq, Repr

/-- Is there a character of a word? -/
def hasWord (ascii : Bool) (c : Option Char) : Bool :=
  c.any (if ascii then CharSet.asciiWord else CharSet.word).contains

/-- Does the condition hold between these two characters, which may be missing? -/
def Look.holds (l : Look) (before after : Option Char) : Bool :=
  match l with
  | textStart => before.isNone
  | textEnd => after.isNone
  | lineStart false => before.all (· == '\n')
  | lineEnd false => after.all (· == '\n')
  | lineStart true =>
    before.all fun b => b == '\n' || (b == '\r' && after != some '\n')
  | lineEnd true =>
    after.all fun a => a == '\r' || (a == '\n' && before != some '\r')
  | wordBoundary ascii => hasWord ascii before != hasWord ascii after
  | noWordBoundary ascii => hasWord ascii before == hasWord ascii after
  | wordStart ascii => !hasWord ascii before && hasWord ascii after
  | wordEnd ascii => hasWord ascii before && !hasWord ascii after
  | wordStartHalf ascii => !hasWord ascii before
  | wordEndHalf ascii => !hasWord ascii after

/-- A pattern. -/
inductive Node where
  /-- Nothing at all. -/
  | empty
  /-- These characters one after another. -/
  | text (cs : List Char)
  /-- One character of a set.  Sets of Unicode and sets of bytes are told apart, even if they hold
  the same characters. -/
  | set (unicode : Bool) (s : CharSet)
  /-- A place. -/
  | look (l : Look)
  | sequence (a b : Node)
  /-- The first one if it can be, else the second one. -/
  | choice (a b : Node)
  /-- At least so many times, and at most so many if there is a limit. -/
  | repetition (least : Nat) (most : Option Nat) (greedy : Bool) (a : Node)
  /-- A group with its number, from 1. -/
  | group (index : Nat) (a : Node)
deriving DecidableEq

namespace Node

/-! ## What patterns can match -/

/-- Does the pattern match nothing but the empty text? -/
def isPlace : Node → Bool
  | empty | look _ => true
  | text _ | set _ _ => false
  | sequence a b | choice a b => a.isPlace && b.isPlace
  | repetition _ _ _ a | group _ a => a.isPlace

/-- Can the pattern match the empty text? -/
def canBeEmpty : Node → Bool
  | empty | look _ => true
  | text _ | set _ _ => false
  | sequence a b => a.canBeEmpty && b.canBeEmpty
  | choice a b => a.canBeEmpty || b.canBeEmpty
  | repetition least _ _ a => least == 0 || a.canBeEmpty
  | group _ a => a.canBeEmpty

/-- The highest number of a group, 0 if there are none. -/
def lastGroup : Node → Nat
  | empty | text _ | set _ _ | look _ => 0
  | sequence a b | choice a b => max a.lastGroup b.lastGroup
  | repetition _ _ _ a => a.lastGroup
  | group n a => max n a.lastGroup

end Node

end ColumnTree.Pattern
