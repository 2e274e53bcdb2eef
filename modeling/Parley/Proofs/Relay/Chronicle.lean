import Parley.Proofs.Relay.Session
import Parley.Relay.Hub

/-!
# A chronicle of the hub

The hub goes on, and it is put down who came to which group, who posted what there,
who read what, and everything that is written to any socket, with the occasion on
which it is. Besides the moves of the hub there are those of a session that is
interrupted between the two steps in which it leaves its group, so that anything
else may happen in between.
-/

namespace Parley
namespace Relay

/-- The group of a session, and how many messages had been posted anywhere when it came. -/
structure Membership where
  group : GroupName
  since : Nat

structure Post where
  author : Nat
  group : GroupName
  payload : Payload

structure Reading where
  reader : Nat
  /-- Who the reader was known to be then. -/
  peer : Option PeerId
  payload : Payload

structure Writing where
  writer : Nat
  /-- Whether it was written because the writer heard its group. -/
  heard : Bool
  out : Outgoing

structure Chronicle where
  hub : Hub
  /-- The memberships of all sessions, numbered as they came. -/
  members : List Membership
  posts : List Post
  readings : List Reading
  /-- The frames that came in to open sessions. -/
  frames : List (Nat × Incoming)
  /-- Everything that sessions wrote to their sockets. -/
  written : List Writing

inductive Turn where
  | go (m : Hub.Move)
  /-- A session reads a frame, but does not get beyond the first step if it leaves. -/
  | part (session : Nat) (frame : Incoming)
  /-- The second step of leaving. -/
  | clear (session : Nat)

namespace Hub

def groups (h : Hub) : Groups :=
  h.house.groups

def withGroups (h : Hub) (groups : Groups) : Hub :=
  { h with house := { h.house with groups := groups } }

def postings (h : Hub) (i : Nat) (frame : Incoming) : List Payload :=
  match h.session? i with
  | none => []
  | some s => s.postings h.limit frame

def reading? (h : Hub) (i : Nat) : Option Reading :=
  match h.session? i with
  | none => none
  | some s =>
    match s.seat with
    | none => none
    | some tag => (h.groups.receive tag).1.map fun p => ⟨i, s.connection.peer?, p⟩

def Move.isHearing : Move → Bool
  | .hear _ => true
  | _ => false

def writings (h : Hub) (socket : Socket) (m : Move) : List Writing :=
  (h.move socket m).2.1.map fun out => ⟨(h.move socket m).1, m.isHearing, out⟩

def part (h : Hub) (socket : Socket) (i : Nat) (frame : Incoming) : Hub :=
  let after := (h.read socket i frame).2
  match (h.session? i).bind (·.seat), (after.session? i).bind (·.seat) with
  | some tag, none => after.withGroups (h.groups.dropReceiver tag)
  | _, _ => after

end Hub

namespace Chronicle

def ofLimits (capacity limit : Nat) : Chronicle :=
  ⟨Hub.ofLimits capacity limit, [], [], [], [], []⟩

def postsOf (c : Chronicle) (i : Nat) (frame : Incoming) : List Post :=
  match c.members[i]? with
  | none => []
  | some m => (c.hub.postings i frame).map fun p => ⟨i, m.group, p⟩

def takenIn (c : Chronicle) (i : Nat) (frame : Incoming) : List (Nat × Incoming) :=
  if c.hub.isOpen i then [(i, frame)] else []

def turn (c : Chronicle) (socket : Socket) : Turn → Chronicle
  | .go (.connect g hint) =>
    { c with
      hub := (c.hub.connect socket g hint).2.2
      members := c.members ++ [⟨g, c.posts.length⟩]
      written := c.written ++ c.hub.writings socket (.connect g hint) }
  | .go (.read i frame) =>
    { c with
      hub := (c.hub.read socket i frame).2
      posts := c.posts ++ c.postsOf i frame
      frames := c.frames ++ c.takenIn i frame
      written := c.written ++ c.hub.writings socket (.read i frame) }
  | .go (.hear i) =>
    { c with
      hub := (c.hub.hear socket i).2
      readings := c.readings ++ (c.hub.reading? i).toList
      written := c.written ++ c.hub.writings socket (.hear i) }
  | .part i frame =>
    { c with
      hub := c.hub.part socket i frame
      posts := c.posts ++ c.postsOf i frame
      frames := c.frames ++ c.takenIn i frame
      written := c.written ++ c.hub.writings socket (.read i frame) }
  | .clear i => { c with hub := c.hub.withGroups (c.hub.groups.dropMember ⟨i⟩) }

def run (c : Chronicle) (ts : List (Socket × Turn)) : Chronicle :=
  ts.foldl (fun c t => c.turn t.1 t.2) c

theorem run_append (c : Chronicle) (ts ts' : List (Socket × Turn)) :
    c.run (ts ++ ts') = (c.run ts).run ts' :=
  List.foldl_append

theorem hub_run (c : Chronicle) (ms : List (Socket × Hub.Move)) :
    (c.run (ms.map fun m => (m.1, .go m.2))).hub = (c.hub.run ms).2 := by
  induction ms generalizing c with
  | nil => rfl
  | cons m ms ih =>
      rcases m with ⟨socket, m⟩
      change ((c.turn socket (.go m)).run (ms.map fun m => (m.1, .go m.2))).hub =
        ((c.hub.move socket m).2.2.run ms).2
      rw [ih]
      cases m with
      | connect | read | hear => rfl

/-- Nothing that the hub writes is left out. -/
theorem written_run (c : Chronicle) (ms : List (Socket × Hub.Move)) :
    (c.run (ms.map fun m => (m.1, .go m.2))).written.map (fun w => (w.writer, w.out)) =
      c.written.map (fun w => (w.writer, w.out)) ++
        (c.hub.run ms).1.flatMap fun told => told.2.map fun out => (told.1, out) := by
  induction ms generalizing c with
  | nil => exact (List.append_nil _).symm
  | cons m ms ih =>
      rcases m with ⟨socket, m⟩
      change ((c.turn socket (.go m)).run (ms.map fun m => (m.1, .go m.2))).written.map _ = _
      have hwritten : (c.turn socket (.go m)).written = c.written ++ c.hub.writings socket m := by
        cases m <;> rfl
      have hhub : (c.turn socket (.go m)).hub = (c.hub.move socket m).2.2 := by
        cases m <;> rfl
      rw [ih, hwritten, hhub, Hub.writings, List.map_append, List.map_map, List.append_assoc]
      rfl

/-!
# What is on record about a session
-/

def readingsOf (c : Chronicle) (i : Nat) : List Reading :=
  c.readings.filter fun r => r.reader = i

def framesOf (c : Chronicle) (i : Nat) : List Incoming :=
  (c.frames.filter fun f => f.1 = i).map Prod.snd

def writtenTo (c : Chronicle) (i : Nat) (heard : Bool) : List Outgoing :=
  (c.written.filter fun w => w.writer = i && w.heard = heard).map Writing.out

/-- What was written to the socket of a session because it heard its group. -/
def deliveredTo (c : Chronicle) (i : Nat) : List Outgoing :=
  c.writtenTo i true

/-- What was written to the socket of a session on any other occasion. -/
def answeredTo (c : Chronicle) (i : Nat) : List Outgoing :=
  c.writtenTo i false

/-- What others posted in the group since the session came. -/
def postsFor (c : Chronicle) (i : Nat) (m : Membership) : List Payload :=
  ((c.posts.drop m.since).filter fun post => post.author ≠ i && post.group = m.group).map
    Post.payload

end Chronicle
end Relay
end Parley
