/-
# The server

Requests come on standard input, one a line, and replies go to standard output, one a line, until
the input ends or nobody reads the replies.  The environment variable `AGGTREE_HIERARCHY` may name a
file with the tree to begin with.
-/
import ColumnTree.Library.Standard
import ColumnTree.Session.Transcript

namespace ColumnTree.Server

open Session Outline

/-- The variable that names the file with the tree to begin with. -/
def fileVariable : String := "AGGTREE_HIERARCHY"

/-- The content of the file that is named in the environment, if it can be read. -/
def initialText : IO (Option String) := do
  match ← IO.getEnv fileVariable with
  | none => return none
  | some path =>
    try
      return some (← IO.FS.readFile path)
    catch _ =>
      return none

/-- The functions that formulas may call.  A session looks them up and never calls them, so that the
time they are given does not matter. -/
def functions : Library :=
  .standard (.midnight ⟨0⟩)

/-- A line of the input with its line feed; empty at the end. -/
partial def readLine (input : IO.FS.Stream) (line : ByteArray) : IO ByteArray := do
  let next ← input.read 1
  if next.isEmpty then return line
  let line := line ++ next
  if next[0]? = some 10 then return line
  readLine input line

/-- Replies to lines until there are no more. -/
partial def serve (input output : IO.FS.Stream) (e : Editor) : IO Unit := do
  let line ← readLine input .empty
  if line.isEmpty then return
  match receive? e line with
  | none => return
  | some (e, reply?) =>
    if let some reply := reply? then
      output.putStr (reply.toJson.render ++ "\n")
      output.flush
    serve input output e

/-- Runs the server; it also ends when a reply cannot be written. -/
def run : IO Unit := do
  let t := initialTree (← initialText)
  try
    serve (← IO.getStdin) (← IO.getStdout) (Editor.ofTree functions t)
  catch _ =>
    return

end ColumnTree.Server

/-- Runs the server. -/
def main : IO Unit :=
  ColumnTree.Server.run
