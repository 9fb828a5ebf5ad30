/-
# Patterns as programs

A pattern becomes a list of instructions that name each other by number.  The machine that runs
them tries the first branch of a `split` before the second one, which is how the order between the
ways to match is kept.

A loop over a pattern that can be empty is entered through a split of its own, so that going round
without progress ends at the loop and not before it.
-/
import ColumnTree.Pattern.Basic

namespace ColumnTree.Pattern

/-- One step of the machine.  Numbers are those of the instructions that follow. -/
inductive Instruction where
  /-- Reads a character of a set. -/
  | read (s : CharSet) (next : Nat)
  /-- Goes on if the place is right. -/
  | check (l : Look) (next : Nat)
  /-- Notes the place. -/
  | save (slot next : Nat)
  /-- Goes on in two ways, the first one first. -/
  | split (first second : Nat)
  /-- The pattern has matched. -/
  | accept

/-- Instructions in order. -/
abbrev Program := Array Instruction

namespace Program

/-- A split between a body and what follows, in the order of greed. -/
def fork (greedy : Bool) (body next : Nat) : Instruction :=
  if greedy then .split body next else .split next body

/-- A program with one more instruction, and its number. -/
def add (p : Program) (i : Instruction) : Program × Nat :=
  let n := p.size
  (p.push i, n)

/-- A part of a program that has been built: from a program and the number of what follows to the
program with the part and the number of its first instruction. -/
abbrev Part := Program → Nat → Program × Nat

/-- The part that reads characters one after another. -/
def Part.text : List Char → Part
  | [], p, next => (p, next)
  | c :: cs, p, next =>
    let (p, start) := text cs p next
    p.add (.read (.single c) start)

/-- A part so many times. -/
def Part.times (body : Part) : Nat → Part
  | 0, p, next => (p, next)
  | n + 1, p, next =>
    let (p, start) := body p next
    times body n p start

/-- A part up to so many times, each time tested before. -/
def Part.upTo (greedy : Bool) (body : Part) (exit : Nat) : Nat → Part
  | 0, p, next => (p, next)
  | n + 1, p, next =>
    let (p, start) := body p next
    let (p, test) := p.add (fork greedy start exit)
    upTo greedy body exit n p test

/-- A part at least once, tested after each time. -/
def Part.loop (greedy : Bool) (body : Part) : Part := fun p next =>
  let (p, test) := p.add .accept
  let (p, start) := body p test
  (p.setIfInBounds test (fork greedy start next), start)

/-- A part any number of times. -/
def Part.star (greedy mayBeEmpty : Bool) (body : Part) : Part := fun p next =>
  if mayBeEmpty then
    let (p, start) := body.loop greedy p next
    p.add (fork greedy start next)
  else
    let (p, test) := p.add .accept
    let (p, start) := body p test
    (p.setIfInBounds test (fork greedy start next), test)

end Program

open Program in
/-- The program of a pattern. -/
def Node.part : Node → Part
  | empty => fun p next => (p, next)
  | text cs => Part.text cs
  | set _ s => fun p next => p.add (.read s next)
  | look l => fun p next => p.add (.check l next)
  | sequence a b => fun p next =>
    let (p, start) := b.part p next
    a.part p start
  | choice a b => fun p next =>
    let (p, first) := a.part p next
    let (p, second) := b.part p next
    p.add (.split first second)
  | group n a => fun p next =>
    let (p, stop) := p.add (.save (2 * n + 1) next)
    let (p, start) := a.part p stop
    p.add (.save (2 * n) start)
  | repetition least most greedy a => fun p next =>
    let body := a.part
    match most with
    | none =>
      if least = 0 then body.star greedy a.canBeEmpty p next
      else
        let (p, start) := body.loop greedy p next
        body.times (least - 1) p start
    | some most =>
      let (p, start) := body.upTo greedy next (most - least) p next
      body.times least p start

/-- The program of a whole pattern and the number of its first instruction. -/
def Node.program (a : Node) : Program × Nat :=
  let (p, last) := Program.add #[] .accept
  let (p, stop) := p.add (.save 1 last)
  let (p, start) := a.part p stop
  p.add (.save 0 start)

end ColumnTree.Pattern
