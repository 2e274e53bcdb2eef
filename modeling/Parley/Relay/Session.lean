import Parley.Relay.Connection
import Parley.Relay.Groups

/-!
# Sessions

A session carries out what its connection asks for. It reads its socket and
its group, one thing at a time, and writes to its socket; a write that fails
ends the connection as a failed read would, and what was still to be done for
that event is left undone.
-/

namespace Parley
namespace Relay

inductive Incoming where
  | text (s : String)
  | binary (bytes : List UInt8)
  | ping (bytes : List UInt8)
  | pong (bytes : List UInt8)
  /-- A closing frame, or nothing any more. -/
  | ended
  | failed (reason : String)
  deriving DecidableEq, Repr

inductive Outgoing where
  | frame (p : Payload)
  | close
  deriving DecidableEq, Repr

abbrev Socket :=
  Outgoing → Option String

structure Meters where
  connections : Nat := 0
  relayed : Nat := 0
  delivered : Nat := 0
  dropped : Nat := 0
  pongs : Nat := 0
  deriving DecidableEq, Repr

structure House where
  groups : Groups
  meters : Meters
  deriving DecidableEq, Repr

structure Session where
  connection : Connection
  /-- The place in the group, until it is given up. -/
  seat : Option Tag
  deriving DecidableEq, Repr

/-- Where a session stands, in its house, and what it has written. -/
structure Standing where
  house : House
  session : Session
  written : List Outgoing
  deriving DecidableEq, Repr

namespace Standing

def write (socket : Socket) (out : Outgoing) (counted : Meters → Meters) (x : Standing) :
    Standing × Option String :=
  match socket out with
  | some reason => (x, some reason)
  | none =>
    ({ x with
        house := { x.house with meters := counted x.house.meters }
        written := x.written ++ [out] }, none)

def publish (p : Payload) (x : Standing) : Standing :=
  match x.session.seat with
  | none => x
  | some tag =>
    { x with
      house :=
        { groups := (x.house.groups.publish tag p).2
          meters := { x.house.meters with relayed := x.house.meters.relayed + 1 } } }

def giveUp (x : Standing) : Standing :=
  match x.session.seat with
  | none => x
  | some tag =>
    { x with
      house := { x.house with groups := x.house.groups.leave tag }
      session := { x.session with seat := none } }

/-- Carries out one action. Whether a closing frame gets through makes no difference. -/
def perform (socket : Socket) (x : Standing) : Action → Standing × Option String
  | .identify _ => (x, none)
  | .publish p => (x.publish p, none)
  | .reply s => x.write socket (.frame (.text s)) fun m => { m with pongs := m.pongs + 1 }
  | .deliver p => x.write socket (.frame p) fun m => { m with delivered := m.delivered + 1 }
  | .close _ _ => ((x.write socket .close id).1, none)
  | .unsubscribe => (x.giveUp, none)

def performAll (socket : Socket) (x : Standing) : List Action → Standing × Option String
  | [] => (x, none)
  | a :: rest =>
    match x.perform socket a with
    | (x, none) => performAll socket x rest
    | (x, some reason) => (x, some reason)

def react (socket : Socket) (x : Standing) (e : Event) : Standing × Option String :=
  let (connection, actions) := x.session.connection.step e
  performAll socket { x with session := { x.session with connection := connection } } actions

def take (socket : Socket) (x : Standing) (e : Event) : Standing :=
  match x.react socket e with
  | (x, none) => x
  | (x, some reason) => (x.react socket (.failed reason)).1

end Standing

namespace Session

/-- A frame longer than the limit is dropped. -/
def isTooLong (limit : Nat) : Incoming → Bool
  | .text s => limit < s.utf8ByteSize
  | .binary bytes => limit < bytes.length
  | _ => false

/-- What a frame means to the connection; pings and pongs of the transport mean nothing. -/
def event? : Incoming → Option Event
  | .text s => some (.text s)
  | .binary bytes => some (.binary bytes)
  | .ping _ | .pong _ => none
  | .ended => some .ended
  | .failed reason => some (.failed reason)

inductive Input where
  | read (frame : Incoming)
  | heard (p : Payload)
  deriving DecidableEq, Repr

def advance (limit : Nat) (socket : Socket) (x : Standing) (input : Input) : Standing :=
  if x.session.connection.isClosed then x
  else
    match input with
    | .heard p => x.take socket (.heard p)
    | .read frame =>
      if isTooLong limit frame then
        { x with
          house :=
            { x.house with
              meters := { x.house.meters with dropped := x.house.meters.dropped + 1 } } }
      else
        match event? frame with
        | none => x
        | some e => x.take socket e

def start (socket : Socket) (h : House) (g : GroupName) (hint : Option PeerId) : Standing :=
  let (tag, groups) := h.groups.join g
  let meters := { h.meters with connections := h.meters.connections + 1 }
  Standing.take socket ⟨⟨groups, meters⟩, ⟨.connecting, some tag⟩, []⟩ (.opened hint)

def run (limit : Nat) (x : Standing) : List (Socket × Input) → Standing
  | [] => x
  | (socket, input) :: rest => run limit (advance limit socket x input) rest

end Session
end Relay
end Parley
