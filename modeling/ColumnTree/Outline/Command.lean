/-
# Commands

An edit is a value, so that it can be stored, sent and taken back.
-/
import ColumnTree.Outline.Record

namespace ColumnTree.Outline

/-- An edit of the outline. -/
inductive Command where
  /-- Puts a record below another, last or at a place among its children.  Children that the record
  lists leave their parents for it. -/
  | add (parent : RecordId) (record : Record) (place : Option UInt64)
  /-- Takes a record away; its children go to its place. -/
  | remove (id : RecordId)
  /-- Changes fields of a record. -/
  | update (id : RecordId) (patch : Patch)
  /-- Puts a record and all below it under another. -/
  | move (source target : RecordId) (place : Option UInt64)
  /-- Edits in order, taken back as one. -/
  | batch (commands : List Command)
deriving Repr

namespace Command

/-- The name of the kind of a command. -/
def kind : Command → String
  | add .. => "addNode"
  | remove _ => "removeNode"
  | update .. => "updateNode"
  | move .. => "relationshipNode"
  | batch _ => "batch"

/-- The record that a command is about; a batch is about none. -/
def subject? : Command → Option RecordId
  | add _ record _ => some record.id
  | remove id => some id
  | update id _ => some id
  | move source _ _ => some source
  | batch _ => none

end Command

end ColumnTree.Outline
