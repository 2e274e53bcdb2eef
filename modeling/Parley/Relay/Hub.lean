import Parley.Relay.Session

/-!
# The hub

All sessions, side by side. Each goes on by itself, whenever its socket or its
group has something for it, and in what order they do so is open.
-/

namespace Parley
namespace Relay

structure Hub where
  house : House
  /-- All sessions there ever were, numbered as they came. -/
  sessions : List Session
  /-- The longest frame that is taken, in bytes. -/
  limit : Nat
  deriving DecidableEq, Repr

namespace Hub

def ofLimits (capacity limit : Nat) : Hub :=
  ⟨⟨Groups.ofCapacity capacity, {}⟩, [], limit⟩

def session? (h : Hub) (i : Nat) : Option Session :=
  h.sessions[i]?

def isOpen (h : Hub) (i : Nat) : Bool :=
  match h.session? i with
  | some s => !s.connection.isClosed
  | none => false

def connect (h : Hub) (socket : Socket) (g : GroupName) (hint : Option PeerId) :
    Nat × List Outgoing × Hub :=
  let x := Session.start socket h.house g hint
  (h.sessions.length, x.written,
    { h with house := x.house, sessions := h.sessions ++ [x.session] })

def advance (h : Hub) (socket : Socket) (i : Nat) (input : Session.Input) :
    List Outgoing × Hub :=
  match h.session? i with
  | none => ([], h)
  | some s =>
    let x := Session.advance h.limit socket ⟨h.house, s, []⟩ input
    (x.written, { h with house := x.house, sessions := h.sessions.set i x.session })

def read (h : Hub) (socket : Socket) (i : Nat) (frame : Incoming) : List Outgoing × Hub :=
  h.advance socket i (.read frame)

def hear (h : Hub) (socket : Socket) (i : Nat) : List Outgoing × Hub :=
  match (h.session? i).bind (·.seat) with
  | none => ([], h)
  | some tag =>
    match h.house.groups.receive tag with
    | (none, groups) => ([], { h with house := { h.house with groups := groups } })
    | (some p, groups) =>
      advance { h with house := { h.house with groups := groups } } socket i (.heard p)

/-!
# Runs
-/

inductive Move where
  | connect (g : GroupName) (hint : Option PeerId)
  | read (session : Nat) (frame : Incoming)
  | hear (session : Nat)
  deriving DecidableEq, Repr

def move (h : Hub) (socket : Socket) : Move → Nat × List Outgoing × Hub
  | .connect g hint => h.connect socket g hint
  | .read i frame => (i, h.read socket i frame)
  | .hear i => (i, h.hear socket i)

def run (h : Hub) : List (Socket × Move) → List (Nat × List Outgoing) × Hub
  | [] => ([], h)
  | (socket, m) :: rest =>
    let (i, written, h) := h.move socket m
    let (more, h) := run h rest
    ((i, written) :: more, h)

/-!
# Quiet
-/

def backlog (h : Hub) (i : Nat) : Nat :=
  (((h.session? i).bind (·.seat)).map h.house.groups.backlog).getD 0

def hearTimes (socket : Socket) (i : Nat) : Nat → Hub → List Outgoing × Hub
  | 0, h => ([], h)
  | n + 1, h =>
    let (written, h) := h.hear socket i
    let (more, h) := hearTimes socket i n h
    (written ++ more, h)

def hearAll (h : Hub) (socket : Socket) (i : Nat) : List Outgoing × Hub :=
  hearTimes socket i (h.backlog i) h

end Hub
end Relay
end Parley
