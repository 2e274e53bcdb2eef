import Parley.Frame.Payload
import Parley.Frame.Pong
import Parley.Frame.Routing
import Parley.Text.Blank

/-!
# Connections

What one socket means to its group. Events come in, from the socket and from
the group, and actions come out, to be carried out in order. The one thing a
connection remembers is who its peer is: the first identity that is revealed
while it is open, by a hint, a sender or the head of a binary frame.
-/

namespace Parley
namespace Relay

inductive Connection where
  | connecting
  | live (peer : Option PeerId)
  | closed
  deriving DecidableEq, Repr

inductive Event where
  | opened (hint : Option PeerId)
  | text (s : String)
  | binary (bytes : List UInt8)
  | heard (p : Payload)
  | failed (reason : String)
  | ended
  deriving DecidableEq, Repr

inductive Action where
  | identify (peer : PeerId)
  | publish (p : Payload)
  | reply (s : String)
  | deliver (p : Payload)
  | close (reason : String) (transient : Bool)
  | unsubscribe
  deriving DecidableEq, Repr

/-!
# Delivery
-/

/-- Only a text frame that names another receiver is kept from an identified peer. -/
def shouldDeliver (peer : Option PeerId) (p : Payload) : Bool :=
  match peer, p with
  | some me, .text s =>
    match (TextFrame.ofText s).receiver? with
    | some receiver => me.text == receiver
    | none => true
  | _, _ => true

/-!
# Failures
-/

/-- What transports report when a peer merely drops off the network. -/
def churn : List String :=
  ["no response from ping frame", "ping timeout", "unexpected eof", "unexpected end",
    "connection reset", "without closing handshake"]

def isTransient (reason : String) : Bool :=
  churn.any fun needle => Text.contains needle (Text.lowerAscii reason)

namespace Connection

def isClosed : Connection → Bool
  | .closed => true
  | _ => false

def peer? : Connection → Option PeerId
  | .live peer => peer
  | _ => none

/-- The first identity stays; learning it is an action. -/
def learn (known candidate : Option PeerId) : Option PeerId × List Action :=
  match known, candidate with
  | none, some peer => (some peer, [.identify peer])
  | known, _ => (known, [])

def binaryActions (bytes : List UInt8) : List Action :=
  match BinaryFrame.ofBytes bytes with
  | .short | .identity _ => [.publish (.binary bytes)]
  | .truncated _ => []
  | .ping _ time =>
    [.reply (Pong.ofTime time.value).write, .publish (.binary (bytes.take PeerId.width))]

def step : Connection → Event → Connection × List Action
  | .connecting, .opened hint =>
    let (peer, actions) := learn none hint
    (.live peer, actions)
  | .live peer, .text s =>
    let (peer, actions) := learn peer ((TextFrame.ofText s).sender?.map PeerId.mk)
    (.live peer, actions ++ [.publish (.text s)])
  | .live peer, .binary bytes =>
    let (peer, actions) := learn peer (BinaryFrame.ofBytes bytes).peer?
    (.live peer, actions ++ binaryActions bytes)
  | .live peer, .heard p => (.live peer, if shouldDeliver peer p then [.deliver p] else [])
  | .connecting, .failed reason | .live _, .failed reason =>
    (.closed, [.close reason (isTransient reason), .unsubscribe])
  | .connecting, .ended | .live _, .ended => (.closed, [.unsubscribe])
  | c, _ => (c, [])

def trace (c : Connection) : List Event → List (Connection × List Action)
  | [] => []
  | e :: es => c.step e :: trace (c.step e).1 es

end Connection
end Relay
end Parley
