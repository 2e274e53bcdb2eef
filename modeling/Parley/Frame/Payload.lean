/-!
# Payloads

What a frame carries, exactly as it came.
-/

namespace Parley

inductive Payload where
  | text (s : String)
  | binary (bytes : List UInt8)
  deriving DecidableEq, Repr

namespace Payload

def size : Payload → Nat
  | .text s => s.utf8ByteSize
  | .binary bytes => bytes.length

def isEmpty (p : Payload) : Bool :=
  p.size == 0

end Payload
end Parley
