import Parley.Http.MediaType
import Parley.Http.Message
import Parley.Text.Utf8
import Parley.Translation.Entry

/-!
# Inquiries

The body of a request for a translation. It is refused for its media type, its
size, its syntax or its shape, in this order; nothing is read after the first
JSON value.
-/

namespace Parley
namespace Http

open Json

structure Inquiry where
  text : String
  locale : Option String
  markup : Option Markup
  part : Option Part
  deriving DecidableEq, Repr

namespace Inquiry

/-- The parts that were read so far; an optional part that is null was read too. -/
structure Draft where
  text : Option String := none
  locale : Option (Option String) := none
  markup : Option (Option Markup) := none
  part : Option (Option Part) := none

def Draft.member (d : Draft) (name : String) (t : Tree) : Except Fault Draft := do
  if name = "text" then
    pure { d with text := ← Reader.once Reader.string d.text t }
  else if name = "locale" then
    pure { d with locale := ← Reader.once (Reader.option Reader.string) d.locale t }
  else if name = "kind" then
    pure
      { d with markup := ← Reader.once (Reader.option (Markup.reader Reader.null)) d.markup t }
  else if name = "type" then
    pure { d with part := ← Reader.once (Reader.option Part.reader) d.part t }
  else
    Reader.skip t
    pure d

def Draft.row : StateT Reader.Row (Except Fault) Draft := do
  let text ← Reader.required (← Reader.Row.next Reader.string)
  let locale ← Reader.Row.next (Reader.option Reader.string)
  let markup ← Reader.Row.next (Reader.option (Markup.reader Reader.null))
  let part ← Reader.Row.next (Reader.option Part.reader)
  pure ⟨some text, locale, markup, part⟩

def Draft.finish (d : Draft) : Except Fault Inquiry := do
  let text ← Reader.required d.text
  pure ⟨text, d.locale.join, d.markup.join, d.part.join⟩

def reader : Reader Inquiry
  | .object members ending => do
    (← Reader.members Draft.member ending {} members).finish
  | .array items ending => do (← Reader.row Draft.row items ending .malformed).finish
  | t => .error (Reader.wrong t)

/-!
# Bodies
-/

def bodyLimit : Nat :=
  2097152

def isTyped (r : Request) : Bool :=
  ((r.plainValue? "content-type").bind MediaType.ofString?).any MediaType.isJson

def decodeBody (body : List UInt8) : Except Fault Inquiry :=
  match Text.Utf8.decode? body with
  | some s => decodeFirst reader s
  | none => .error .malformed

def refusal : Fault → Response
  | .malformed => .plain 400 "Failed to parse the request body as JSON"
  | .mismatch => .plain 422 "Failed to deserialize the JSON body into the target type"

def ofRequest (r : Request) : Except Response Inquiry :=
  if !isTyped r then
    .error (.plain 415 "Expected request with `Content-Type: application/json`")
  else if bodyLimit < r.body.length then
    .error (.plain 413 "Failed to buffer the request body: length limit exceeded")
  else (decodeBody r.body).mapError refusal

end Inquiry
end Http
end Parley
