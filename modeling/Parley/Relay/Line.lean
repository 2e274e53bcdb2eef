import Parley.Relay.Hub

/-!
# Lines

A line is what lies between a client and its session. It answers the pings of
the transport, it breaks when a frame makes no sense, and it may vanish or go
deaf: then the client hears nothing more, and no write gets through.
-/

namespace Parley
namespace Relay

structure Line where
  isUp : Bool
  isDeaf : Bool
  deriving DecidableEq, Repr

inductive Deed where
  | text (s : String)
  | binary (bytes : List UInt8)
  | ping (bytes : List UInt8)
  | close
  | vanish
  /-- Sends what is no frame. -/
  | garble
  | deafen
  deriving DecidableEq, Repr

inductive Sight where
  | frame (p : Payload)
  | pong (bytes : List UInt8)
  | close
  | ended
  deriving DecidableEq, Repr

namespace Line

def frameLimit : Nat :=
  16777216

def pingLimit : Nat :=
  125

def isHearing (l : Line) : Bool :=
  l.isUp && !l.isDeaf

def socket (l : Line) : Socket :=
  fun _ => if l.isHearing then none else some "broken pipe"

def sightOf : Outgoing → Sight
  | .frame p => .frame p
  | .close => .close

def incoming (l : Line) : Deed → Option Incoming
  | .text s => some (if frameLimit < s.utf8ByteSize then .failed "frame too long" else .text s)
  | .binary bytes =>
    some (if frameLimit < bytes.length then .failed "frame too long" else .binary bytes)
  | .ping bytes =>
    some (if pingLimit < bytes.length then .failed "ping too long"
      else if l.isHearing then .ping bytes
      else .failed "broken pipe")
  | .close => some .ended
  | .vanish => some (.failed "connection reset without closing handshake")
  | .garble => some (.failed "invalid frame")
  | .deafen => none

def meet (l : Line) : Deed → Line
  | .deafen => { l with isDeaf := true }
  | .vanish => { l with isUp := false }
  | _ => l

def echo (frame : Option Incoming) : List Sight :=
  match frame with
  | some (.ping bytes) => [.pong bytes]
  | _ => []

end Line

/-!
# Many lines
-/

/-- A hub with the line of each session. -/
structure Exchange where
  hub : Hub
  lines : List Line
  deriving DecidableEq, Repr

namespace Exchange

def ofLimits (capacity limit : Nat) : Exchange :=
  ⟨Hub.ofLimits capacity limit, []⟩

def isUp (x : Exchange) (i : Nat) : Bool :=
  (x.lines[i]?.map (·.isUp)).getD false

def takes (x : Exchange) (i : Nat) : Bool :=
  x.hub.isOpen i

def hear (x : Exchange) (i : Nat) (l : Line) : List Sight × Exchange :=
  let (written, hub) := x.hub.hearAll l.socket i
  (written.map Line.sightOf, { x with hub := hub })

def settle (x : Exchange) : List (Nat × List Sight) × Exchange :=
  x.lines.zipIdx.foldl
    (fun (seen, x) (l, i) =>
      let (sights, x) := hear x i l
      (seen ++ [(i, sights)], x))
    ([], x)

def connect (x : Exchange) (g : GroupName) (hint : Option PeerId) : Nat × Exchange :=
  let line : Line := ⟨true, false⟩
  let (i, _, hub) := x.hub.connect line.socket g hint
  (i, ⟨hub, x.lines ++ [line]⟩)

def connect? (x : Exchange) (g : GroupName) (hint : Option PeerId) : Option (Nat × Exchange) :=
  (x.hub.house.groups.join? g).map fun _ => x.connect g hint

def hangUp (x : Exchange) (i : Nat) (l : Line) (d : Deed) : List Sight × Exchange :=
  let down : Exchange := { x with lines := x.lines.set i { l with isUp := false } }
  if !l.isHearing then ([], if d = .close then down else x)
  else if x.hub.isOpen i then ([], x)
  else ([.ended], down)

def act (x : Exchange) (i : Nat) (d : Deed) : List (Nat × List Sight) × Exchange :=
  match x.lines[i]? with
  | none => ([], x)
  | some l =>
    let line := l.meet d
    let frame := line.incoming d
    let (written, hub) :=
      match frame with
      | some f => x.hub.read line.socket i f
      | none => ([], x.hub)
    let (ended, x) := hangUp ⟨hub, x.lines.set i line⟩ i line d
    let (seen, x) := x.settle
    ((i, Line.echo frame ++ written.map Line.sightOf ++ ended) :: seen, x)

end Exchange
end Relay
end Parley
