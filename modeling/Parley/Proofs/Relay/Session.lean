import Parley.Relay.Session

/-!
# What sessions do to their groups

A session whose writes get through does one of few things when something comes in:
it goes on, it goes on and sends one message to its group, or it closes and leaves
the group.
-/

namespace Parley
namespace Relay

def Socket.Works (socket : Socket) : Prop :=
  ∀ out, socket out = none

def Action.payload? : Action → Option Payload
  | .publish p => some p
  | _ => none

def Session.postings (limit : Nat) (s : Session) (frame : Incoming) : List Payload :=
  if isTooLong limit frame then []
  else
    match event? frame with
    | none => []
    | some e => (s.connection.step e).2.filterMap Action.payload?

namespace Connection

theorem filterMap_learn (known candidate : Option PeerId) (rest : List Action) :
    ((learn known candidate).2 ++ rest).filterMap Action.payload? =
      rest.filterMap Action.payload? := by
  rcases known with _ | me
  · rcases candidate with _ | other <;> rfl
  · rcases candidate with _ | other <;> rfl

end Connection

namespace Standing

variable {socket : Socket}

theorem write_of_works (h : socket.Works) (out : Outgoing) (counted : Meters → Meters)
    (x : Standing) :
    x.write socket out counted =
      ({ x with
          house := { x.house with meters := counted x.house.meters }
          written := x.written ++ [out] }, none) := by
  rw [write, h]

theorem performAll_learn (known candidate : Option PeerId) (x : Standing) (rest : List Action) :
    x.performAll socket ((Connection.learn known candidate).2 ++ rest) =
      x.performAll socket rest := by
  rcases known with _ | me
  · rcases candidate with _ | other <;> rfl
  · rcases candidate with _ | other <;> rfl

/-!
# Reading
-/

variable {house : House} {peer : Option PeerId} {tag : Tag} {written : List Outgoing}

theorem react_text (s : String) :
    react socket ⟨house, ⟨.live peer, some tag⟩, written⟩ (.text s) =
      (publish (.text s) ⟨house,
        ⟨.live (Connection.learn peer ((TextFrame.ofText s).sender?.map PeerId.mk)).1, some tag⟩,
        written⟩, none) :=
  performAll_learn peer ((TextFrame.ofText s).sender?.map PeerId.mk) _ [.publish (.text s)]

theorem react_binary (bytes : List UInt8) :
    react socket ⟨house, ⟨.live peer, some tag⟩, written⟩ (.binary bytes) =
      performAll socket ⟨house,
        ⟨.live (Connection.learn peer (BinaryFrame.ofBytes bytes).peer?).1, some tag⟩, written⟩
        (Connection.binaryActions bytes) :=
  performAll_learn peer (BinaryFrame.ofBytes bytes).peer? _ _

end Standing

namespace Session

open Standing

variable {socket : Socket} {house : House} {peer : Option PeerId} {tag : Tag}
  {written : List Outgoing}

/-- What becomes of an open session, and of its groups, when a frame comes in. -/
inductive Outcome (tag : Tag) (gs : Groups) : Session → List Payload → Groups → Prop where
  | quiet (peer : Option PeerId) : Outcome tag gs ⟨.live peer, some tag⟩ [] gs
  | posted (peer : Option PeerId) (p : Payload) :
      Outcome tag gs ⟨.live peer, some tag⟩ [p] (gs.publish tag p).2
  | left : Outcome tag gs ⟨.closed, none⟩ [] (gs.leave tag)

theorem outcome_text (s : String) :
    Outcome tag house.groups
      (take socket ⟨house, ⟨.live peer, some tag⟩, written⟩ (.text s)).session
      ((Connection.step (.live peer) (.text s)).2.filterMap Action.payload?)
      (take socket ⟨house, ⟨.live peer, some tag⟩, written⟩ (.text s)).house.groups := by
  rw [take, react_text, Connection.step, Connection.filterMap_learn]
  exact .posted _ (.text s)

theorem outcome_binary (h : socket.Works) (bytes : List UInt8) :
    Outcome tag house.groups
      (take socket ⟨house, ⟨.live peer, some tag⟩, written⟩ (.binary bytes)).session
      ((Connection.step (.live peer) (.binary bytes)).2.filterMap Action.payload?)
      (take socket ⟨house, ⟨.live peer, some tag⟩, written⟩ (.binary bytes)).house.groups := by
  rw [take, react_binary, Connection.step, Connection.filterMap_learn, Connection.binaryActions]
  cases BinaryFrame.ofBytes bytes with
  | short => exact .posted _ (.binary bytes)
  | identity => exact .posted _ (.binary bytes)
  | truncated => exact .quiet _
  | ping _ time =>
      simp only [performAll, perform, write_of_works h]
      exact .posted _ (.binary (bytes.take PeerId.width))

theorem outcome_closing (h : socket.Works) {e : Event}
    (he : e = .ended ∨ ∃ reason, e = .failed reason) :
    Outcome tag house.groups
      (take socket ⟨house, ⟨.live peer, some tag⟩, written⟩ e).session
      ((Connection.step (.live peer) e).2.filterMap Action.payload?)
      (take socket ⟨house, ⟨.live peer, some tag⟩, written⟩ e).house.groups := by
  rcases he with rfl | ⟨reason, rfl⟩
  · exact .left
  · simp only [take, react, Connection.step, performAll, perform, write_of_works h]
    exact .left

theorem outcome_read (h : socket.Works) (limit : Nat) (frame : Incoming) :
    Outcome tag house.groups
      (advance limit socket ⟨house, ⟨.live peer, some tag⟩, written⟩ (.read frame)).session
      (postings limit ⟨.live peer, some tag⟩ frame)
      (advance limit socket ⟨house, ⟨.live peer, some tag⟩, written⟩
        (.read frame)).house.groups := by
  rw [postings]
  change Outcome tag house.groups
    (Standing.session (if isTooLong limit frame = true then _ else _)) _
    (Standing.house (if isTooLong limit frame = true then _ else _)).groups
  cases hlong : isTooLong limit frame with
  | true => exact .quiet peer
  | false =>
      cases frame with
      | text s => exact outcome_text s
      | binary bytes => exact outcome_binary h bytes
      | ping bytes => exact .quiet peer
      | pong bytes => exact .quiet peer
      | ended => exact outcome_closing h (Or.inl rfl)
      | failed reason => exact outcome_closing h (Or.inr ⟨reason, rfl⟩)

/-!
# Leaving
-/

theorem groups_react_failed (reason : String) :
    (react socket ⟨house, ⟨.live peer, some tag⟩, written⟩ (.failed reason)).1.house.groups =
      house.groups.leave tag := by
  show (giveUp (write socket .close id ⟨house, ⟨.closed, some tag⟩, written⟩).1).house.groups = _
  unfold Standing.write
  cases socket .close <;> rfl

theorem groups_of_left (limit : Nat) (frame : Incoming)
    (hleft : (advance limit socket ⟨house, ⟨.live peer, some tag⟩, written⟩
      (.read frame)).session.seat = none) :
    (advance limit socket ⟨house, ⟨.live peer, some tag⟩, written⟩ (.read frame)).house.groups =
      house.groups.leave tag := by
  change (Standing.session (if isTooLong limit frame = true then _ else _)).seat = none at hleft
  show (Standing.house (if isTooLong limit frame = true then _ else _)).groups = _
  cases hlong : isTooLong limit frame with
  | true =>
      rw [hlong] at hleft
      cases hleft
  | false =>
      rw [hlong] at hleft
      cases frame with
      | text s =>
          change (take socket ⟨house, ⟨.live peer, some tag⟩, written⟩ (.text s)).session.seat =
            none at hleft
          rw [take, react_text] at hleft
          cases hleft
      | binary bytes =>
          change (take socket ⟨house, ⟨.live peer, some tag⟩, written⟩
            (.binary bytes)).session.seat = none at hleft
          show (take socket ⟨house, ⟨.live peer, some tag⟩, written⟩
            (.binary bytes)).house.groups = _
          rw [take, react_binary, Connection.binaryActions] at hleft ⊢
          cases hframe : BinaryFrame.ofBytes bytes with
          | short | identity | truncated =>
              rw [hframe] at hleft
              cases hleft
          | ping _ time =>
              rw [hframe] at hleft
              simp only [performAll, perform, Standing.write] at hleft ⊢
              cases hreply : socket (.frame (.text (Pong.ofTime time.value).write)) with
              | none =>
                  rw [hreply] at hleft
                  cases hleft
              | some reason => exact groups_react_failed reason
      | ping bytes => cases hleft
      | pong bytes => cases hleft
      | ended => rfl
      | failed reason => exact groups_react_failed reason

/-!
# Hearing
-/

theorem advance_heard (h : socket.Works) (limit : Nat) (house : House) (peer : Option PeerId)
    (tag : Tag) (p : Payload) :
    ∃ meters, advance limit socket ⟨house, ⟨.live peer, some tag⟩, []⟩ (.heard p) =
      ⟨{ house with meters := meters }, ⟨.live peer, some tag⟩,
        if shouldDeliver peer p then [.frame p] else []⟩ := by
  cases hdeliver : shouldDeliver peer p with
  | true =>
      refine ⟨{ house.meters with delivered := house.meters.delivered + 1 }, ?_⟩
      simp only [advance, Connection.isClosed, take, react, Connection.step, hdeliver, performAll,
        perform, write_of_works h, Bool.false_eq_true, if_false, if_true, List.nil_append]
  | false =>
      refine ⟨house.meters, ?_⟩
      simp only [advance, Connection.isClosed, take, react, Connection.step, hdeliver, performAll,
        Bool.false_eq_true, if_false]

/-!
# Coming
-/

theorem start_eq (socket : Socket) (house : House) (g : GroupName) (hint : Option PeerId) :
    (start socket house g hint).session = ⟨.live hint, some (house.groups.join g).1⟩ ∧
      (start socket house g hint).house.groups = (house.groups.join g).2 := by
  cases hint with
  | none => exact ⟨rfl, rfl⟩
  | some me => exact ⟨rfl, rfl⟩

end Session
end Relay
end Parley
