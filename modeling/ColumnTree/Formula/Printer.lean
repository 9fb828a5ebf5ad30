/-
# Writing trees as formulas

A tree is written without any parentheses of its own: those of the formula are nodes of the tree.
Binary operators have a blank on each side, the arguments of a call are set apart by a comma and a
blank, and texts stand in double quotes with `\` and `"` escaped.

A tree of the wrong shape is written as far as it goes: what is missing is left out, and what is
too much is written one after the other or not at all.
-/
import ColumnTree.Formula.Ast
import ColumnTree.Text.Pieces

namespace ColumnTree.Formula

/-- One character inside a text literal. -/
def escapeText (c : Char) : List Char :=
  if c = '\\' ∨ c = '"' then ['\\', c] else [c]

/-- A text literal. -/
def quoteText (s : List Char) : List Char :=
  '"' :: s.flatMap escapeText ++ ['"']

namespace Tag

/-- The text of a node, from the token that is its first child, if it is one, and the texts of all
children. -/
def layOut (tag : Tag) (token : Option String) (parts : List (List Char)) : List Char :=
  match tag with
  | negation =>
    match parts with
    | [] => []
    | p :: _ => '-' :: p
  | parentheses => '(' :: parts.headD [] ++ [')']
  | call => parts.headD [] ++ '(' :: Text.join [',', ' '] parts.tail ++ [')']
  | trueLiteral => "true".toList
  | falseLiteral => "false".toList
  | text => quoteText (token.getD "").toList
  | euler => ['e']
  | column => '$' :: '(' :: (token.getD "").toList ++ [')']
  | index | indexParentheses =>
    match parts with
    | a :: b :: _ => a ++ '[' :: b ++ [']']
    | _ => []
  | tag =>
    match tag.operator?, parts with
    | some op, l :: r :: _ => l ++ ' ' :: op.toList ++ ' ' :: r
    | _, parts => parts.flatten

end Tag

namespace Ast

mutual

/-- The text of a tree. -/
def write : Ast → List Char
  | token t => t.toList
  | node tag children => tag.layOut (children.head?.bind token?) (writeAll children)

/-- The texts of several trees. -/
def writeAll : List Ast → List (List Char)
  | [] => []
  | a :: rest => write a :: writeAll rest

end

/-- The text of a tree, as a `String`. -/
def render (a : Ast) : String :=
  String.ofList a.write

end Ast

end ColumnTree.Formula
