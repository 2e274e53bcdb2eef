import Parley.Frame.Payload

/-!
# Channels

The messages of one group, in the order they were sent. A channel keeps only
the last of them. Receivers read on their own, each from its place in the
order; one that was overtaken goes on with the oldest message that is left.
-/

namespace Parley
namespace Relay

/-- A place in a group. Tags are numbered as they are given out and never given out twice. -/
structure Tag where
  number : Nat
  deriving DecidableEq, Repr

def Tag.describe (t : Tag) : String :=
  "ConnectionTag(" ++ toString t.number ++ ")"

structure Message where
  origin : Tag
  payload : Payload
  deriving DecidableEq, Repr

structure Channel where
  /-- The messages that are kept, oldest first. -/
  kept : List Message
  /-- How many messages were ever sent. -/
  sent : Nat
  /-- How many receivers there are. -/
  receivers : Nat
  deriving DecidableEq, Repr

namespace Channel

def empty : Channel :=
  ⟨[], 0, 0⟩

/-- The most messages for which a channel can have room. -/
def most : Nat :=
  72057594037927936

/-- Room for at least one message, rounded up to a power of two. -/
def room (capacity : Nat) : Nat :=
  (max capacity 1).nextPowerOfTwo

def send (room : Nat) (c : Channel) (m : Message) : Channel :=
  { c with kept := (c.kept ++ [m]).drop (c.kept.length + 1 - room), sent := c.sent + 1 }

def addReceiver (c : Channel) : Channel :=
  { c with receivers := c.receivers + 1 }

def dropReceiver (c : Channel) : Channel :=
  { c with receivers := c.receivers - 1 }

def oldest (c : Channel) : Nat :=
  c.sent - c.kept.length

def unread (c : Channel) (place : Nat) : List Message :=
  c.kept.drop (place - c.oldest)

def firstFrom (me : Tag) : List Message → Option Payload × Nat
  | [] => (none, 0)
  | m :: rest =>
    if m.origin = me then ((firstFrom me rest).1, (firstFrom me rest).2 + 1)
    else (some m.payload, 1)

/-- Reads up to the first message of another; none of them waits for more. -/
def receive (c : Channel) (me : Tag) (place : Nat) : Option Payload × Nat :=
  let (p, n) := firstFrom me (c.unread place)
  (p, max place c.oldest + n)

end Channel
end Relay
end Parley
