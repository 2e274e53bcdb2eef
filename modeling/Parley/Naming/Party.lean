import Parley.Naming.Error
import Parley.Text.Hex

/-!
# Groups and peers

A group is named by whoever joins it first. A peer names itself, by any text or
by the sixteen bytes at the head of a binary frame, which are written as a UUID.
-/

namespace Parley

structure GroupName where
  text : String
  deriving DecidableEq, Repr

namespace GroupName

def ofString (text : String) : Except NamingError GroupName :=
  if text.isEmpty then .error .emptyGroup else .ok ⟨text⟩

def describe (g : GroupName) : String :=
  "GroupId(" ++ g.text ++ ")"

end GroupName

structure PeerId where
  text : String
  deriving DecidableEq, Repr

namespace PeerId

def width : Nat :=
  16

def hyphenated (bytes : List UInt8) : List Char :=
  let ds := Text.Hex.encode bytes
  ds.take 8 ++ '-' :: ((ds.drop 8).take 4 ++ '-' :: ((ds.drop 12).take 4 ++
    '-' :: ((ds.drop 16).take 4 ++ '-' :: ds.drop 20)))

def ofBytes? (bytes : List UInt8) : Option PeerId :=
  if bytes.length < width then none
  else some ⟨String.ofList (hyphenated (bytes.take width))⟩

def describe (p : PeerId) : String :=
  "ClientId(" ++ p.text ++ ")"

end PeerId
end Parley
