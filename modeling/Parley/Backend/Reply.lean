import Parley.Backend.Failure
import Parley.Config
import Parley.Json.Decode
import Parley.Json.Write
import Parley.Text.Blank

/-!
# Replies

What a backend's answer comes to. A success is read as a list of choices, of
which the first counts, or an error; anything else as an error, or kept as it
is up to a limit.
-/

namespace Parley
namespace Backend

open Json

/-!
# Unwrapping

Backends fence a translation in a block marked with the locale, or put the
locale before it, although they are asked not to.
-/

def fence : List Char :=
  List.replicate 3 (Char.ofNat 96)

def before? (tail cs : List Char) : Option (List Char) :=
  (Text.after? tail.reverse cs.reverse).map List.reverse

def dropNewline : List Char → List Char
  | '\n' :: rest => rest
  | cs => cs

def unfence (cs : List Char) : List Char :=
  let text := Text.trimEnd (dropNewline cs)
  match before? ('\n' :: fence) text with
  | some inner => inner
  | none => (before? fence text).getD text

def unwrapFence (locale cs : List Char) : List Char :=
  match Text.after? (fence ++ locale) cs with
  | some rest => unfence rest
  | none => cs

def unwrap (locale cs : List Char) : List Char :=
  if locale.isEmpty then cs
  else
    let text := unwrapFence locale cs
    (Text.after? locale text).getD text

/-!
# Errors that backends tell
-/

structure Told where
  code : Option Value := none
  message : Option String := none
  kind : Option (Option String) := none

/-- Containers that may stand inside each other in the code of an error, which is itself two
levels deep. -/
def codeRoom : Nat :=
  Tree.maxDepth - 2

namespace Told

def member (d : Told) (name : String) (t : Tree) : Except Fault Told := do
  if name = "code" then
    pure { d with code := ← Reader.once (Reader.generic codeRoom) d.code t }
  else if name = "message" then
    pure { d with message := ← Reader.once Reader.string d.message t }
  else if name = "type" then
    pure { d with kind := ← Reader.once (Reader.option Reader.string) d.kind t }
  else
    Reader.skip t
    pure d

def row : StateT Reader.Row (Except Fault) Told := do
  let code ← Reader.Row.next (Reader.generic codeRoom)
  let message ← Reader.Row.next Reader.string
  let kind ← Reader.Row.next (Reader.option Reader.string)
  pure ⟨code, message, kind⟩

def reader : Reader Told
  | .object members ending => Reader.members Told.member ending {} members
  | .array items ending => Reader.row Told.row items ending .malformed
  | t => .error (Reader.wrong t)

/-- A code is told as text: a string as it is, nothing for null, and other values as JSON. -/
def codeText : Option Value → String
  | none => ""
  | some .null => ""
  | some (.string s) => s
  | some v => v.write

def toFailure (d : Told) : Failure :=
  .told (codeText d.code) (d.message.getD "") ((d.kind.bind id).getD "")

end Told

def envelopeReader : Reader Told
  | .object members ending => do
    let step (slot : Option Told) (name : String) (t : Tree) : Except Fault (Option Told) :=
      if name = "error" then Reader.once Told.reader slot t
      else do
        Reader.skip t
        pure slot
    Reader.required (← Reader.members step ending none members)
  | .array items ending => do
    let one : StateT Reader.Row (Except Fault) Told := do
      Reader.required (← Reader.Row.next Told.reader)
    Reader.row one items ending .malformed
  | t => .error (Reader.wrong t)

/-!
# Choices
-/

/-- The content of a message; none stands for an empty one. -/
def messageReader : Reader String
  | .object members ending => do
    let step (slot : Option String) (name : String) (t : Tree) : Except Fault (Option String) :=
      if name = "content" then Reader.once Reader.string slot t
      else do
        Reader.skip t
        pure slot
    pure ((← Reader.members step ending none members).getD "")
  | .array items ending => do
    let one : StateT Reader.Row (Except Fault) String := do
      pure ((← Reader.Row.next Reader.string).getD "")
    Reader.row one items ending .malformed
  | t => .error (Reader.wrong t)

def choiceReader : Reader String
  | .object members ending => do
    let step (slot : Option String) (name : String) (t : Tree) : Except Fault (Option String) :=
      if name = "message" then Reader.once messageReader slot t
      else do
        Reader.skip t
        pure slot
    Reader.required (← Reader.members step ending none members)
  | .array items ending => do
    let one : StateT Reader.Row (Except Fault) String := do
      Reader.required (← Reader.Row.next messageReader)
    Reader.row one items ending .malformed
  | t => .error (Reader.wrong t)

/-- A reply of success: the contents of its choices, and an error instead of them. -/
structure Reply where
  choices : Option (List String) := none
  error : Option (Option Told) := none

namespace Reply

def member (d : Reply) (name : String) (t : Tree) : Except Fault Reply := do
  if name = "choices" then
    pure { d with choices := ← Reader.once (Reader.list choiceReader) d.choices t }
  else if name = "error" then
    pure { d with error := ← Reader.once (Reader.option Told.reader) d.error t }
  else
    Reader.skip t
    pure d

def row : StateT Reader.Row (Except Fault) Reply := do
  let choices ← Reader.Row.next (Reader.list choiceReader)
  let error ← Reader.Row.next (Reader.option Told.reader)
  pure ⟨choices, error⟩

def reader : Reader Reply
  | .object members ending => Reader.members Reply.member ending {} members
  | .array items ending => Reader.row Reply.row items ending .malformed
  | t => .error (Reader.wrong t)

def content (r : Reply) : Except Failure String :=
  match r.error.bind id with
  | some told => .error told.toFailure
  | none =>
    match r.choices.getD [] with
    | first :: _ => .ok first
    | [] => .error .empty

end Reply

/-!
# Responses
-/

def keptBody : Nat := 512

def isSuccess (status : Nat) : Bool :=
  200 ≤ status && status ≤ 299

def contentOf (status : Nat) (body : String) : Except Failure String :=
  if isSuccess status then
    match decode Reply.reader body with
    | .ok reply => reply.content
    | .error _ => .error .unreadable
  else
    match decode envelopeReader body with
    | .ok told => .error told.toFailure
    | .error _ => .error (.status status (String.ofList (body.toList.take keptBody)))

/-- Content as it is meant: a conversation may have wrapped it. -/
def meant (mode : Config.Mode) (locale content : String) : String :=
  match mode with
  | .chat => String.ofList (unwrap locale.toList content.toList)
  | .machine => content

def translationOf (mode : Config.Mode) (locale : String) (status : Nat) (body : String) :
    Except Failure String :=
  (contentOf status body).map (meant mode locale)

end Backend
end Parley
