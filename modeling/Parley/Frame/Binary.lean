import Parley.Naming.Party
import Parley.Number.Floating

/-!
# Binary frames

Sixteen bytes name the peer; eight more are the time of a ping. A frame that
ends inside the time names the peer all the same.
-/

namespace Parley

structure Timestamp where
  bits : Nat
  deriving DecidableEq, Repr

namespace Timestamp

def width : Nat :=
  8

def ofBytes (bytes : List UInt8) : Timestamp :=
  ⟨Floating.bitsOfBytes bytes⟩

def value (t : Timestamp) : Floating :=
  Floating.ofBits64 t.bits

end Timestamp

inductive BinaryFrame where
  | short
  | identity (peer : PeerId)
  | truncated (peer : PeerId)
  | ping (peer : PeerId) (time : Timestamp)
  deriving DecidableEq, Repr

namespace BinaryFrame

def ofBytes (bytes : List UInt8) : BinaryFrame :=
  match PeerId.ofBytes? bytes with
  | none => .short
  | some peer =>
    let rest := bytes.drop PeerId.width
    if rest.isEmpty then .identity peer
    else if rest.length < Timestamp.width then .truncated peer
    else .ping peer (Timestamp.ofBytes (rest.take Timestamp.width))

def peer? : BinaryFrame → Option PeerId
  | .short => none
  | .identity peer | .truncated peer | .ping peer _ => some peer

end BinaryFrame
end Parley
