/-
# What can be wrong with a formula

A fault is the cause; kind, message and suggestion are worked out from it.  Offsets in messages
count the bytes of UTF-8 from the start of the piece of text that was being read.
-/
import ColumnTree.Formula.Ast
import ColumnTree.Json.Basic
import ColumnTree.RecordId

namespace ColumnTree.Formula

/-- The kinds of faults. -/
inductive FaultKind where
  /-- The text is no formula, or the tree has no meaning. -/
  | syntaxError
  /-- A column is referenced that is not in scope. -/
  | attributeNotFound
  /-- A function is called that is not in the library, or with a wrong number of arguments. -/
  | variableNotDeclared
  /-- A formula is asked for where none can stand. -/
  | structuralError
deriving DecidableEq, Repr

namespace FaultKind

/-- The name of a kind. -/
def name : FaultKind → String
  | syntaxError => "SyntaxError"
  | attributeNotFound => "AttributeNotFound"
  | variableNotDeclared => "VariableNotDeclared"
  | structuralError => "StructuralError"

/-- The kind of a name. -/
def ofName? (s : String) : Option FaultKind :=
  [syntaxError, attributeNotFound, variableNotDeclared, structuralError].find? fun k => k.name == s

end FaultKind

/-- Why a text is no formula. -/
inductive SyntaxFault where
  /-- A closing bracket without its opening one. -/
  | unbalanced (bracket : Char) (offset : Nat)
  /-- An attribute reference without its closing parenthesis. -/
  | openReference
  /-- A text literal without its closing quote. -/
  | openText
  /-- An opening bracket without its closing one. -/
  | openBracket (bracket : Char)
  | emptyExpression
  /-- An operator that lacks one of its operands. -/
  | operands (operator : String)
  | comparisonOperands
  /-- A sign that begins no comparison. -/
  | strayComparison (sign : Char) (offset : Nat)
  /-- A sign with nothing after it. -/
  | missingAfter (sign : Char)
  | listLiteral
  | missingOperand
  | emptyReference
  | badReference (text : String)
  /-- A text literal that goes on after its closing quote. -/
  | afterText (text : String)
  | badNumber (text : String)
  | unexpected (text : String)
deriving DecidableEq, Repr

/-- The message of a syntax fault. -/
def SyntaxFault.message : SyntaxFault → String
  | unbalanced c n => s!"Unbalanced '{c}' at offset {n}"
  | openReference => "Unclosed attribute reference"
  | openText => "Unterminated string literal"
  | openBracket c => s!"Unclosed '{c}'"
  | emptyExpression => "Empty expression"
  | operands op => s!"'{op}' needs two operands"
  | comparisonOperands => "Comparison needs two operands"
  | strayComparison c n => s!"Unexpected '{c}' at offset {n}"
  | missingAfter c => s!"Missing operand after '{c}'"
  | listLiteral => "List literals are not supported"
  | missingOperand => "Missing operand"
  | emptyReference => "Empty attribute reference"
  | badReference t => s!"Malformed attribute reference '{t}'"
  | afterText t => s!"Unexpected text after string literal in '{t}'"
  | badNumber t => s!"Invalid number '{t}'"
  | unexpected t => s!"Unexpected token '{t}'"

/-- Why a syntax tree has no meaning. -/
inductive ShapeFault where
  /-- A token where an expression should stand. -/
  | bareToken (text : String)
  /-- A node with a wrong number of children. -/
  | arity (tag : Tag) (expected actual : Nat)
  /-- A node in place of a token. -/
  | noToken (tag : Tag)
  | badNumber (text : String)
  | namelessCall
deriving DecidableEq, Repr

/-- The message of a shape fault. -/
def ShapeFault.message : ShapeFault → String
  | bareToken t => s!"bare token '{t}' in expression position"
  | arity tag expected actual =>
    let noun := if expected = 1 then "child" else "children"
    s!"{tag.name} expects {expected} {noun}, got {actual}"
  | noToken tag => s!"{tag.name} expects a token child"
  | badNumber t => s!"invalid number literal '{t}'"
  | namelessCall => "function call without a name"

/-- What can be wrong with a formula. -/
inductive Fault where
  /-- The text is no formula. -/
  | text (f : SyntaxFault)
  /-- The tree has no meaning. -/
  | shape (f : ShapeFault)
  /-- Columns that are not in scope, and those that are. -/
  | outOfScope (missing allowed : List String)
  /-- A function that is not in the library, the names that are, and the most similar of them. -/
  | unknownFunction (name : String) (allowed similar : List String)
  /-- A call with a wrong number of arguments. -/
  | arguments (name : String) (accepted : List Nat) (actual : Nat) (usage : String)
  /-- A record that is no aggregation. -/
  | noAggregation (id : RecordId)
  /-- A record that does not exist. -/
  | noRecord (id : RecordId)
deriving DecidableEq, Repr

namespace Fault

/-- The kind of a fault. -/
def kind : Fault → FaultKind
  | text _ | shape _ => .syntaxError
  | outOfScope .. => .attributeNotFound
  | unknownFunction .. | arguments .. => .variableNotDeclared
  | noAggregation _ | noRecord _ => .structuralError

/-- Names in single quotes, set apart by commas. -/
def quotedNames (names : List String) : String :=
  ", ".intercalate (names.map fun n => s!"'{n}'")

/-- The message of a fault. -/
def message : Fault → String
  | text f => f.message
  | shape f => s!"Malformed AST: {f.message}"
  | outOfScope missing allowed =>
    s!"Attributes {quotedNames missing} are not children of this aggregation. " ++
      s!"Allowed: {quotedNames allowed}"
  | unknownFunction name allowed _ =>
    let names := ", ".intercalate allowed
    s!"Function '{name}' is not declared. Allowed functions: {names}"
  | arguments name accepted actual _ =>
    let counts := " or ".intercalate (accepted.map toString)
    s!"{name}() expects {counts} arguments, got {actual}"
  | noAggregation id => s!"node {id} is not an aggregation"
  | noRecord id => s!"node {id} does not exist"

/-- What may help. -/
def suggestion? : Fault → Option String
  | text _ | shape _ => some "Check formula syntax"
  | outOfScope .. => some "Reference child attributes with $(name)"
  | unknownFunction _ _ similar =>
    if similar.isEmpty then none else some ("Similar: " ++ ", ".intercalate similar)
  | arguments _ _ _ usage => some s!"Usage: {usage}"
  | noAggregation _ | noRecord _ => none

/-- Kind and message in one line. -/
def line (f : Fault) : String :=
  s!"{f.kind.name}: {f.message}"

/-- The report of a fault. -/
def toJson (f : Fault) : Json :=
  Json.ofFields [("error", some (.str f.kind.name)), ("msg", some (.str f.message)),
    ("suggestion", f.suggestion?.map .str)]

end Fault

end ColumnTree.Formula
