/-
# Sessions

A session reads lines and replies to some of them: to each request that is no notification, and to
each text that is no request.  A line of blanks is passed over.  A line that is not UTF-8 ends the
session.
-/
import ColumnTree.Session.Methods
import ColumnTree.Text.Blank

namespace ColumnTree.Session

open Outline

/-- The tree that a session begins with: the one in a text, or a root alone. -/
def initialTree (text? : Option String) : Tree :=
  match text?.bind Tree.ofText? with
  | some (.ok t) => t
  | _ => .alone "root"

/-- The editor after a line, and the reply if there is one. -/
def respond (e : Editor) (line : String) : Editor × Option Reply :=
  let text := Text.trimmed line
  if text.isEmpty then (e, none)
  else match Request.ofText? text with
    | none => (e, some ⟨none, .error .noRequest⟩)
    | some r =>
      let (e, answer) := handle e r
      (e, r.id?.map fun id => ⟨some id, answer⟩)

/-- The same for a line as it was read; `none` if that ends the session. -/
def receive? (e : Editor) (line : ByteArray) : Option (Editor × Option Reply) :=
  (String.fromUTF8? line).map (respond e)

/-- The replies to some lines, as they were read. -/
def replies (e : Editor) : List ByteArray → List Reply
  | [] => []
  | line :: rest =>
    match receive? e line with
    | none => []
    | some (e, reply?) => reply?.toList ++ replies e rest

/-- The lines in some bytes; each but the last ends with a line feed. -/
def linesOf (bytes : List UInt8) : List ByteArray :=
  let split := bytes.foldr (fun b (first, rest) =>
    if b = 10 then ([b], first :: rest) else (b :: first, rest)) ([], [])
  (split.1 :: split.2).map fun l => ⟨l.toArray⟩

end ColumnTree.Session
