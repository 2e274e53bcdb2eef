import Parley.Json.Decode
import Parley.Json.Write
import Parley.Naming.Content
import Parley.Naming.Markup
import Parley.Naming.Party

/-!
# Stored translations

One whole translated text with the key it is stored under. Instants are seconds
since 1970 in 64 bits with a sign.
-/

namespace Parley

def Instant.low : Int :=
  -9223372036854775808

def Instant.high : Int :=
  9223372036854775807

structure Entry where
  key : ContentKey
  content : String
  locale : String
  markup : Markup
  part : Part
  createdAt : Int
  deriving DecidableEq, Repr

open Json

namespace GroupName

def toJson (g : GroupName) : Value :=
  .string g.text

/-- A name in a message is taken as it is, the empty one too. -/
def reader : Reader GroupName := fun t =>
  (Reader.string t).map GroupName.mk

end GroupName

namespace PeerId

def toJson (p : PeerId) : Value :=
  .string p.text

def reader : Reader PeerId := fun t =>
  (Reader.string t).map PeerId.mk

end PeerId

namespace ContentKey

def toJson (k : ContentKey) : Value :=
  .array (k.bytes.toList.map fun b => .int b.toNat)

def bytesReader : Nat → StateT Reader.Row (Except Fault) (List UInt8)
  | 0 => pure []
  | n + 1 => do
    let b ← Reader.required (← Reader.Row.next (Reader.int 0 255))
    let rest ← bytesReader n
    pure (UInt8.ofNat b.toNat :: rest)

def reader : Reader ContentKey
  | .array items ending => do
    let bytes ← Reader.row (bytesReader 32) items ending .malformed
    Reader.required (ofBytes? bytes)
  | t => .error (Reader.wrong t)

end ContentKey

namespace Markup

def toJson (m : Markup) : Value :=
  .string m.mime

def reader (payload : Reader Unit) : Reader Markup :=
  Reader.choice ofMime? payload

end Markup

namespace Part

def toJson (p : Part) : Value :=
  .string p.name

def reader : Reader Part :=
  Reader.choice ofName? Reader.null

end Part

namespace Entry

def toJson (e : Entry) : Value :=
  .object
    [("hash", e.key.toJson), ("content", .string e.content), ("locale", .string e.locale),
      ("text_kind", e.markup.toJson), ("kind", e.part.toJson), ("created_at", .int e.createdAt)]

structure Draft where
  key : Option ContentKey := none
  content : Option String := none
  locale : Option String := none
  markup : Option Markup := none
  part : Option Part := none
  createdAt : Option Int := none

def instant : Reader Int :=
  Reader.int Instant.low Instant.high

def Draft.member (d : Draft) (name : String) (t : Tree) : Except Fault Draft := do
  if name = "hash" then
    pure { d with key := ← Reader.once ContentKey.reader d.key t }
  else if name = "content" then
    pure { d with content := ← Reader.once Reader.string d.content t }
  else if name = "locale" then
    pure { d with locale := ← Reader.once Reader.string d.locale t }
  else if name = "text_kind" then
    pure { d with markup := ← Reader.once (Markup.reader Reader.null) d.markup t }
  else if name = "kind" then
    pure { d with part := ← Reader.once Part.reader d.part t }
  else if name = "created_at" then
    pure { d with createdAt := ← Reader.once instant d.createdAt t }
  else
    Reader.skip t
    pure d

def Draft.finish (d : Draft) : Except Fault Entry := do
  pure
    { key := ← Reader.required d.key
      content := ← Reader.required d.content
      locale := ← Reader.required d.locale
      markup := ← Reader.required d.markup
      part := ← Reader.required d.part
      createdAt := ← Reader.required d.createdAt }

def rowReader : StateT Reader.Row (Except Fault) Entry := do
  let key ← Reader.required (← Reader.Row.next ContentKey.reader)
  let content ← Reader.required (← Reader.Row.next Reader.string)
  let locale ← Reader.required (← Reader.Row.next Reader.string)
  let markup ← Reader.required (← Reader.Row.next (Markup.reader Reader.null))
  let part ← Reader.required (← Reader.Row.next Part.reader)
  let createdAt ← Reader.required (← Reader.Row.next instant)
  pure ⟨key, content, locale, markup, part, createdAt⟩

def reader : Reader Entry
  | .object members ending => do
    (← Reader.members Draft.member ending {} members).finish
  | .array items ending => Reader.row rowReader items ending .malformed
  | t => .error (Reader.wrong t)

end Entry
end Parley
