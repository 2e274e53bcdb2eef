import Parley.Proofs.Relay.Renaming
import Parley.Relay.Session

/-!
# Twins

All that a session does to its groups is to publish there and to leave. Two sessions
with the same connection that get the same events do the same, each with its own tag
and in its own house, and write the same to their sockets.
-/

namespace Parley
namespace Relay

inductive Seats (t t' : Tag) : Option Tag → Option Tag → Prop where
  | held : Seats t t' (some t) (some t')
  | left : Seats t t' none none

structure Session.Twins (t t' : Tag) (s s' : Session) : Prop where
  connection : s.connection = s'.connection
  seats : Seats t t' s.seat s'.seat

structure Groups.IsKept (R : Groups → Groups → Prop) (t t' : Tag) : Prop where
  publish : ∀ {gs gs'} p, R gs gs' → R (gs.publish t p).2 (gs'.publish t' p).2
  leave : ∀ {gs gs'}, R gs gs' → R (gs.leave t) (gs'.leave t')

namespace Standing

/-- Twins that have written the same, in houses with related groups. -/
structure Paired (R : Groups → Groups → Prop) (t t' : Tag) (x y : Standing) : Prop where
  groups : R x.house.groups y.house.groups
  twins : x.session.Twins t t' y.session
  written : x.written = y.written

namespace Paired

variable {R : Groups → Groups → Prop} {t t' : Tag} {x y : Standing}

theorem write (h : Paired R t t' x y) (socket : Socket) (out : Outgoing)
    (counted : Meters → Meters) :
    Paired R t t' (x.write socket out counted).1 (y.write socket out counted).1 ∧
      (x.write socket out counted).2 = (y.write socket out counted).2 := by
  unfold Standing.write
  cases socket out with
  | some reason => exact ⟨h, rfl⟩
  | none => exact ⟨⟨h.groups, h.twins, congrArg (· ++ [out]) h.written⟩, rfl⟩

theorem publish (h : Paired R t t' x y) (hR : Groups.IsKept R t t') (p : Payload) :
    Paired R t t' (x.publish p) (y.publish p) := by
  rcases x with ⟨house, ⟨connection, seat⟩, written⟩
  rcases y with ⟨house', ⟨connection', seat'⟩, written'⟩
  rcases h with ⟨hgroups, ⟨hconnection, hseats⟩, hwritten⟩
  cases hseats with
  | held => exact ⟨hR.publish p hgroups, ⟨hconnection, .held⟩, hwritten⟩
  | left => exact ⟨hgroups, ⟨hconnection, .left⟩, hwritten⟩

theorem giveUp (h : Paired R t t' x y) (hR : Groups.IsKept R t t') :
    Paired R t t' x.giveUp y.giveUp := by
  rcases x with ⟨house, ⟨connection, seat⟩, written⟩
  rcases y with ⟨house', ⟨connection', seat'⟩, written'⟩
  rcases h with ⟨hgroups, ⟨hconnection, hseats⟩, hwritten⟩
  cases hseats with
  | held => exact ⟨hR.leave hgroups, ⟨hconnection, .left⟩, hwritten⟩
  | left => exact ⟨hgroups, ⟨hconnection, .left⟩, hwritten⟩

theorem perform (h : Paired R t t' x y) (hR : Groups.IsKept R t t') (socket : Socket)
    (a : Action) :
    Paired R t t' (x.perform socket a).1 (y.perform socket a).1 ∧
      (x.perform socket a).2 = (y.perform socket a).2 := by
  cases a with
  | identify peer => exact ⟨h, rfl⟩
  | publish p => exact ⟨h.publish hR p, rfl⟩
  | reply s => exact h.write socket _ _
  | deliver p => exact h.write socket _ _
  | close reason transient => exact ⟨(h.write socket .close id).left, rfl⟩
  | unsubscribe => exact ⟨h.giveUp hR, rfl⟩

theorem performAll (h : Paired R t t' x y) (hR : Groups.IsKept R t t') (socket : Socket)
    (actions : List Action) :
    Paired R t t' (x.performAll socket actions).1 (y.performAll socket actions).1 ∧
      (x.performAll socket actions).2 = (y.performAll socket actions).2 := by
  induction actions generalizing x y with
  | nil => exact ⟨h, rfl⟩
  | cons a actions ih =>
      unfold Standing.performAll
      rcases h.perform hR socket a with ⟨hnext, hfailure⟩
      generalize x.perform socket a = left at hnext hfailure
      generalize y.perform socket a = right at hnext hfailure
      rcases left with ⟨x', _ | reason⟩
      · rcases right with ⟨y', failure⟩
        cases hfailure
        exact ih hnext
      · rcases right with ⟨y', failure⟩
        cases hfailure
        exact ⟨hnext, rfl⟩

theorem react (h : Paired R t t' x y) (hR : Groups.IsKept R t t') (socket : Socket) (e : Event) :
    Paired R t t' (x.react socket e).1 (y.react socket e).1 ∧
      (x.react socket e).2 = (y.react socket e).2 := by
  unfold Standing.react
  rw [h.twins.connection]
  apply performAll _ hR
  exact ⟨h.groups, ⟨rfl, h.twins.seats⟩, h.written⟩

theorem take (h : Paired R t t' x y) (hR : Groups.IsKept R t t') (socket : Socket) (e : Event) :
    Paired R t t' (x.take socket e) (y.take socket e) := by
  unfold Standing.take
  rcases h.react hR socket e with ⟨hnext, hfailure⟩
  generalize x.react socket e = left at hnext hfailure
  generalize y.react socket e = right at hnext hfailure
  rcases left with ⟨x', _ | reason⟩
  · rcases right with ⟨y', failure⟩
    cases hfailure
    exact hnext
  · rcases right with ⟨y', failure⟩
    cases hfailure
    exact (hnext.react hR socket (.failed reason)).left

theorem advance (h : Paired R t t' x y) (hR : Groups.IsKept R t t') (limit : Nat)
    (socket : Socket) (input : Session.Input) :
    Paired R t t' (Session.advance limit socket x input)
      (Session.advance limit socket y input) := by
  unfold Session.advance
  rw [h.twins.connection]
  cases y.session.connection.isClosed with
  | true => exact h
  | false =>
      simp only [Bool.false_eq_true, if_false]
      cases input with
      | heard p => exact h.take hR socket (.heard p)
      | read frame =>
          dsimp only
          cases Session.isTooLong limit frame with
          | true => exact ⟨h.groups, h.twins, h.written⟩
          | false =>
              simp only [Bool.false_eq_true, if_false]
              cases Session.event? frame with
              | none => exact h
              | some e => exact h.take hR socket e

end Paired
end Standing
end Relay
end Parley
