import Parley.Digest.Blake3
import Parley.Naming.Error
import Parley.Text.Hex
import Parley.Text.Utf8

/-!
# Content keys

A text and the locale it is wanted in are stored under the hash of their bytes,
one after the other. Nothing marks the seam, so two pairs with the same joined
bytes share a key.
-/

namespace Parley

structure ContentKey where
  bytes : Vector UInt8 32
  deriving DecidableEq, Repr

namespace ContentKey

def ofText (text locale : String) : ContentKey :=
  ⟨Digest.Blake3.hash (Text.Utf8.encode text ++ Text.Utf8.encode locale)⟩

def toHex (k : ContentKey) : String :=
  String.ofList (Text.Hex.encode k.bytes.toList)

def ofBytes? (bytes : List UInt8) : Option ContentKey :=
  if h : bytes.length = 32 then some ⟨⟨bytes.toArray, by simp [h]⟩⟩ else none

def ofHex (text : String) : Except NamingError ContentKey :=
  match (Text.Hex.decode? text.toList).bind ofBytes? with
  | some k => .ok k
  | none => .error (.invalidKey text)

def describe (k : ContentKey) : String :=
  "ContentHash(" ++ String.ofList ((Text.Hex.encode k.bytes.toList).take 12) ++ ")"

end ContentKey
end Parley
