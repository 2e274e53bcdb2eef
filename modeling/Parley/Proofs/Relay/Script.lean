import Mathlib.Data.Nat.Digits.Defs
import Parley.Proofs.Relay.Revelation
import Parley.Proofs.Relay.Session

/-!
# What connections ask for

All that a connection asks for in a run is read off its events: what each frame
publishes and what it is answered, what is delivered to a peer as far as it is known
by then, and how the connection takes its leave. Only the events of the time for which
it is open count, and the first one that ends it.
-/

namespace Parley

theorem Floating.bitsOfBytes_eq_ofDigits (bytes : List UInt8) :
    bitsOfBytes bytes = Nat.ofDigits 256 (bytes.reverse.map UInt8.toNat) := by
  rw [bitsOfBytes, Nat.ofDigits_eq_foldr, List.foldr_map, List.foldr_reverse]
  congr 1
  funext n b
  rw [Nat.mul_comm, Nat.add_comm]
  rfl

namespace Relay

namespace Action

def reply? : Action → Option String
  | .reply s => some s
  | _ => none

def delivery? : Action → Option Payload
  | .deliver p => some p
  | _ => none

end Action

namespace Event

/-!
# What single events ask for
-/

/-- What a frame sends to the group: all of it, or the head of a ping, or nothing of a ping that
ends inside its time. -/
def published? : Event → Option Payload
  | .text s => some (.text s)
  | .binary bytes =>
    if bytes.length ≤ 16 then some (.binary bytes)
    else if bytes.length < 24 then none
    else some (.binary (bytes.take 16))
  | _ => none

/-- The time of a ping: the eight bytes after the head, most significant first. -/
def pingTime (bytes : List UInt8) : Floating :=
  Floating.ofBits64 (Nat.ofDigits 256 (((bytes.drop 16).take 8).reverse.map UInt8.toNat))

def answer? : Event → Option String
  | .binary bytes => if 24 ≤ bytes.length then some (Pong.ofTime (pingTime bytes)).write else none
  | _ => none

def admitted? (peer : Option PeerId) : Event → Option Payload
  | .heard p => if shouldDeliver peer p then some p else none
  | _ => none

/-- All that an open connection asks for when its peer is known as far as this. -/
def script (peer : Option PeerId) (e : Event) : List Action :=
  (if peer = none then e.revealed? else none).toList.map .identify ++
    (e.answer?.toList.map .reply ++
      (e.published?.toList.map .publish ++ (e.admitted? peer).toList.map .deliver))

def farewell : Event → List Action
  | .failed reason => [.close reason (isTransient reason), .unsubscribe]
  | .ended => [.unsubscribe]
  | _ => []

/-!
# What runs ask for
-/

def hint (es : List Event) : Option PeerId :=
  (window? es).bind Prod.fst

/-- The events of the time for which a connection is open. -/
def frames (es : List Event) : List Event :=
  ((window? es).map Prod.snd).getD []

theorem filterMap_script (g : Action → Option β) (peer : Option PeerId) (e : Event) :
    (e.script peer).filterMap g =
      (if peer = none then e.revealed? else none).toList.filterMap (g ∘ .identify) ++
        (e.answer?.toList.filterMap (g ∘ .reply) ++
          (e.published?.toList.filterMap (g ∘ .publish) ++
            (e.admitted? peer).toList.filterMap (g ∘ .deliver))) := by
  simp only [script, List.filterMap_append, List.filterMap_map]

theorem payload?_script (peer : Option PeerId) (e : Event) :
    (e.script peer).filterMap Action.payload? = e.published?.toList := by
  simp [filterMap_script, Function.comp_def, Action.payload?]

theorem reply?_script (peer : Option PeerId) (e : Event) :
    (e.script peer).filterMap Action.reply? = e.answer?.toList := by
  simp [filterMap_script, Function.comp_def, Action.reply?]

theorem unsubscribe_notMem_script (peer : Option PeerId) (e : Event) :
    .unsubscribe ∉ e.script peer := by
  simp [script]

end Event

namespace Connection

variable {e : Event} {es : List Event}

def actions (c : Connection) (es : List Event) : List Action :=
  (c.trace es).flatMap Prod.snd

theorem binaryActions_eq (bytes : List UInt8) :
    binaryActions bytes =
      (Event.binary bytes).answer?.toList.map .reply ++
        (Event.binary bytes).published?.toList.map .publish := by
  unfold binaryActions BinaryFrame.ofBytes PeerId.ofBytes? Event.answer? Event.published?
  by_cases hshort : bytes.length < 16
  · have hle : bytes.length ≤ 16 := Nat.le_of_lt hshort
    have hping : ¬ 24 ≤ bytes.length := by omega
    simp [PeerId.width, hshort, hle, hping]
  · by_cases hhead : bytes.length = 16
    · have hrest : bytes.drop 16 = [] := List.drop_eq_nil_of_le (Nat.le_of_eq hhead)
      simp [PeerId.width, hhead, hrest]
    · have hlong : ¬ bytes.length ≤ 16 := by omega
      by_cases hcut : bytes.length < 24
      · have hping : ¬ 24 ≤ bytes.length := by omega
        have hrest : bytes.length - 16 < 8 := by omega
        simp [PeerId.width, Timestamp.width, hshort, hlong, hcut, hping, hrest]
      · have hping : 24 ≤ bytes.length := by omega
        have hrest : ¬ bytes.length - 16 < 8 := by omega
        simp [PeerId.width, Timestamp.width, hshort, hlong, hcut, hping, hrest, Timestamp.value,
          Timestamp.ofBytes, Event.pingTime, Floating.bitsOfBytes_eq_ofDigits]

theorem step_live_eq (peer : Option PeerId) (h : e.isEnding = false) :
    (live peer).step e = (.live (peer.or e.revealed?), e.script peer) := by
  cases e with
  | opened hint => cases peer <;> rfl
  | text s =>
      have hstep : (live peer).step (.text s) =
          (.live (learn peer (Event.text s).revealed?).1,
            (learn peer (Event.text s).revealed?).2 ++ [.publish (.text s)]) := by
        rw [← Event.sender?_ofText]
        rfl
      rw [hstep, learn_eq]
      rfl
  | binary bytes =>
      have hstep : (live peer).step (.binary bytes) =
          (.live (learn peer (Event.binary bytes).revealed?).1,
            (learn peer (Event.binary bytes).revealed?).2 ++ binaryActions bytes) := by
        show (Connection.live (learn peer (BinaryFrame.ofBytes bytes).peer?).1, _) = _
        rw [BinaryFrame.peer?_ofBytes]
        rfl
      rw [hstep, learn_eq, binaryActions_eq]
      unfold Event.script
      simp only [Event.admitted?, Option.toList_none, List.map_nil, List.append_nil]
  | heard p =>
      have hscript : (Event.heard p).script peer =
          if shouldDeliver peer p then [.deliver p] else [] := by
        have hnew : (if peer = none then (Event.heard p).revealed? else none) = none :=
          ite_self none
        unfold Event.script Event.admitted?
        rw [hnew]
        dsimp only
        split <;> rfl
      rw [hscript]
      cases peer <;> rfl
  | failed | ended => cases h

theorem step_ending_eq {c : Connection} (hc : c ≠ .closed) (h : e.isEnding = true) :
    c.step e = (.closed, e.farewell) := by
  cases e with
  | failed reason =>
      cases c with
      | connecting | live => rfl
      | closed => exact absurd rfl hc
  | ended =>
      cases c with
      | connecting | live => rfl
      | closed => exact absurd rfl hc
  | opened | text | binary | heard => cases h

end Connection
end Relay
end Parley
