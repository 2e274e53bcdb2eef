import Parley.Naming.Party
import Parley.Relay.Channel

/-!
# Groups

A group is there as long as somebody is in it, and has one channel all that
time. Joining looks the channel up, or makes it, and subscribes to it at once.
Leaving takes two steps: the receiver goes first, and then the group, if its
channel has no receivers left. Between the two anything else may happen.
-/

namespace Parley
namespace Relay

structure Subscription where
  tag : Tag
  group : GroupName
  /-- The number of its channel. -/
  channel : Nat
  /-- The place of the next message, until the receiver is gone. -/
  place : Option Nat
  deriving DecidableEq, Repr

structure Groups where
  /-- How many messages a channel keeps. -/
  room : Nat
  /-- All channels there ever were, numbered as they were made. -/
  channels : List Channel
  /-- The channel of each group. -/
  entries : List (GroupName × Nat)
  subscriptions : List Subscription
  /-- How many tags were given out. -/
  joined : Nat
  connections : Nat
  deriving DecidableEq, Repr

namespace Groups

def ofCapacity (capacity : Nat) : Groups :=
  ⟨Channel.room capacity, [], [], [], 0, 0⟩

def channelOf? (gs : Groups) (g : GroupName) : Option Nat :=
  (gs.entries.find? fun e => e.1 = g).map (·.2)

def subscription? (gs : Groups) (tag : Tag) : Option Subscription :=
  gs.subscriptions.find? fun s => s.tag = tag

def receiversOf (gs : Groups) (channel : Nat) : Nat :=
  (gs.channels[channel]?.map (·.receivers)).getD 0

/-!
# Joining
-/

def withChannel (gs : Groups) (g : GroupName) : Nat × Groups :=
  match gs.channelOf? g with
  | some channel => (channel, gs)
  | none =>
    (gs.channels.length,
      { gs with
        channels := gs.channels ++ [Channel.empty]
        entries := gs.entries ++ [(g, gs.channels.length)] })

def subscribe (gs : Groups) (g : GroupName) (channel : Nat) : Groups :=
  let place := (gs.channels[channel]?.map (·.sent)).getD 0
  { gs with
    channels := gs.channels.modify channel Channel.addReceiver
    subscriptions := gs.subscriptions ++ [⟨⟨gs.joined⟩, g, channel, some place⟩]
    joined := gs.joined + 1
    connections := gs.connections + 1 }

def join (gs : Groups) (g : GroupName) : Tag × Groups :=
  let (channel, made) := gs.withChannel g
  (⟨gs.joined⟩, made.subscribe g channel)

/-- Joining breaks down if it has to make a channel with more room than a channel can have. -/
def join? (gs : Groups) (g : GroupName) : Option (Tag × Groups) :=
  if (gs.channelOf? g).isNone && Channel.most < gs.room then none else some (gs.join g)

/-!
# Leaving
-/

/-- The first step: the member no longer receives. -/
def dropReceiver (gs : Groups) (tag : Tag) : Groups :=
  match gs.subscription? tag with
  | some ⟨_, _, channel, some _⟩ =>
    { gs with
      channels := gs.channels.modify channel Channel.dropReceiver
      subscriptions := gs.subscriptions.map fun s =>
        if s.tag = tag then { s with place := none } else s }
  | _ => gs

/-- The second step: the group goes too, if nobody receives in it. -/
def dropMember (gs : Groups) (tag : Tag) : Groups :=
  match gs.subscription? tag with
  | some ⟨_, g, _, none⟩ =>
    { gs with
      entries := gs.entries.filter fun e => !(e.1 = g && gs.receiversOf e.2 = 0)
      subscriptions := gs.subscriptions.filter fun s => s.tag ≠ tag
      connections := gs.connections - 1 }
  | _ => gs

def leave (gs : Groups) (tag : Tag) : Groups :=
  (gs.dropReceiver tag).dropMember tag

/-!
# Messages
-/

/-- Sends to the group of the member, and counts the others who receive there. -/
def publish (gs : Groups) (tag : Tag) (p : Payload) : Option Nat × Groups :=
  match gs.subscription? tag with
  | some ⟨_, _, channel, some _⟩ =>
    (some (gs.receiversOf channel - 1),
      { gs with channels := gs.channels.modify channel fun c => c.send gs.room ⟨tag, p⟩ })
  | _ => (none, gs)

def receive (gs : Groups) (tag : Tag) : Option Payload × Groups :=
  match gs.subscription? tag with
  | some ⟨_, _, channel, some place⟩ =>
    let (p, place) := (gs.channels[channel]?.getD Channel.empty).receive tag place
    (p,
      { gs with
        subscriptions := gs.subscriptions.map fun s =>
          if s.tag = tag then { s with place := some place } else s })
  | _ => (none, gs)

/-- How many messages a member has before it, its own among them. -/
def backlog (gs : Groups) (tag : Tag) : Nat :=
  match gs.subscription? tag with
  | some ⟨_, _, channel, some place⟩ =>
    ((gs.channels[channel]?.getD Channel.empty).unread place).length
  | _ => 0

def receiveUpTo (tag : Tag) : Nat → Groups → List Payload × Groups
  | 0, gs => ([], gs)
  | n + 1, gs =>
    match gs.receive tag with
    | (none, gs) => ([], gs)
    | (some p, gs) => ((receiveUpTo tag n gs).map (p :: ·) id)

def receiveAll (gs : Groups) (tag : Tag) : List Payload × Groups :=
  receiveUpTo tag (gs.backlog tag) gs

/-!
# Counts
-/

def size (gs : Groups) : Nat :=
  gs.entries.length

def members (gs : Groups) (g : GroupName) : Nat :=
  ((gs.channelOf? g).map gs.receiversOf).getD 0

/-!
# Runs
-/

inductive Move where
  | join (g : GroupName)
  | dropReceiver (tag : Tag)
  | dropMember (tag : Tag)
  | publish (tag : Tag) (p : Payload)
  | receive (tag : Tag)
  deriving DecidableEq, Repr

inductive Told where
  | joined (tag : Tag)
  | left
  | reached (others : Option Nat)
  | received (p : Option Payload)
  deriving DecidableEq, Repr

def move (gs : Groups) : Move → Told × Groups
  | .join g => ((gs.join g).map .joined id)
  | .dropReceiver tag => (.left, gs.dropReceiver tag)
  | .dropMember tag => (.left, gs.dropMember tag)
  | .publish tag p => (gs.publish tag p).map .reached id
  | .receive tag => (gs.receive tag).map .received id

def run (gs : Groups) : List Move → List Told × Groups
  | [] => ([], gs)
  | m :: ms =>
    let (told, gs) := gs.move m
    let (rest, gs) := run gs ms
    (told :: rest, gs)

end Groups
end Relay
end Parley
