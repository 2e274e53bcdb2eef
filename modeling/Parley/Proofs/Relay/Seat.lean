import Parley.Proofs.Relay.Enrolment
import Parley.Proofs.Relay.Script
import Parley.Proofs.Relay.Turns

/-!
# Sessions in their seats

A session has its seat in the group from joining until its connection is closed,
whatever becomes of its writes. A write that fails cuts short what was to be done for
one event, but never the giving up of the seat: that comes with the end of the
connection, when no write matters any more.
-/

namespace Parley
namespace Relay

theorem Groups.run_append (gs : Groups) (ms ms' : List Groups.Move) :
    (gs.run (ms ++ ms')).2 = ((gs.run ms).2.run ms').2 := by
  induction ms generalizing gs with
  | nil => rfl
  | cons m ms ih => exact ih (gs.move m).2

namespace Action

def required? : Action → Option Outgoing
  | .reply s => some (.frame (.text s))
  | .deliver p => some (.frame p)
  | _ => none

def moves (tag : Tag) : Action → List Groups.Move
  | .publish p => [.publish tag p]
  | .unsubscribe => [.dropReceiver tag, .dropMember tag]
  | _ => []

end Action

namespace Session

def failure? (socket : Socket) (actions : List Action) : Option String :=
  actions.findSome? fun a => a.required?.bind socket

def carriedOut (socket : Socket) (actions : List Action) : List Action :=
  actions.takeWhile fun a => (a.required?.bind socket).isNone

theorem failure?_cons (socket : Socket) (a : Action) (rest : List Action) :
    failure? socket (a :: rest) = (a.required?.bind socket).or (failure? socket rest) := by
  unfold failure?
  rw [List.findSome?_cons]
  cases a.required?.bind socket <;> rfl

theorem carriedOut_cons (socket : Socket) (a : Action) (rest : List Action) :
    carriedOut socket (a :: rest) =
      if (a.required?.bind socket).isNone then a :: carriedOut socket rest else [] := by
  unfold carriedOut
  rw [List.takeWhile_cons]

/-- All that is carried out for one event: what the connection asks for, up to a write that fails,
and then what it asks for because of that. -/
def doings (socket : Socket) (c : Connection) (e : Event) : List Action :=
  carriedOut socket (c.step e).2 ++
    match failure? socket (c.step e).2 with
    | none => []
    | some reason => carriedOut socket ((c.step e).1.step (.failed reason)).2

/-- Where a session stands after all that it has done: it holds its seat and has not given it up,
or its connection is closed and giving up the seat was the last that it did. -/
inductive Holds (tag : Tag) : Session → List Action → Prop where
  | live {done : List Action} (peer : Option PeerId) (hdone : .unsubscribe ∉ done) :
      Holds tag ⟨.live peer, some tag⟩ done
  | closed {before : List Action} (hbefore : .unsubscribe ∉ before) :
      Holds tag ⟨.closed, none⟩ (before ++ [.unsubscribe])

end Session

namespace Standing

open Session

variable {socket : Socket} {tag : Tag} {x y z : Standing} {a : Action}
  {actions done done' : List Action}

/-!
# What is done to the groups
-/

/-- From one standing to another, the member of this tag has done just this to the groups, and
what it has sent was counted. -/
structure Did (tag : Tag) (done : List Action) (x y : Standing) : Prop where
  groups : y.house.groups = (x.house.groups.run (done.flatMap (Action.moves tag))).2
  relayed : y.house.meters.relayed =
    x.house.meters.relayed + (done.filterMap Action.payload?).length

theorem Did.nil (tag : Tag) (x : Standing) : Did tag [] x x :=
  ⟨rfl, rfl⟩

theorem Did.append (h : Did tag done x y) (h' : Did tag done' y z) :
    Did tag (done ++ done') x z where
  groups := by rw [List.flatMap_append, Groups.run_append, ← h.groups, h'.groups]
  relayed := by
    rw [List.filterMap_append, List.length_append, ← Nat.add_assoc, ← h.relayed, h'.relayed]

theorem perform_of_fails {reason : String} (h : a.required?.bind socket = some reason) :
    x.perform socket a = (x, some reason) := by
  cases a with
  | reply s =>
      have hfails : socket (.frame (.text s)) = some reason := h
      rw [perform, write, hfails]
  | deliver p =>
      have hfails : socket (.frame p) = some reason := h
      rw [perform, write, hfails]
  | identify | publish | close | unsubscribe => cases h

theorem perform_of_works (h : a.required?.bind socket = none) (hseat : x.session.seat = some tag)
    (ha : a ≠ .unsubscribe) :
    ∃ y, x.perform socket a = (y, none) ∧ Did tag [a] x y ∧ y.session = x.session := by
  cases a with
  | identify peer => exact ⟨x, rfl, ⟨rfl, rfl⟩, rfl⟩
  | publish p =>
      refine ⟨x.publish p, rfl, ?_, ?_⟩
      · unfold Standing.publish
        rw [hseat]
        exact ⟨rfl, rfl⟩
      · unfold Standing.publish
        rw [hseat]
  | reply s =>
      have hworks : socket (.frame (.text s)) = none := h
      rw [perform, write, hworks]
      exact ⟨_, rfl, ⟨rfl, rfl⟩, rfl⟩
  | deliver p =>
      have hworks : socket (.frame p) = none := h
      rw [perform, write, hworks]
      exact ⟨_, rfl, ⟨rfl, rfl⟩, rfl⟩
  | close reason transient =>
      refine ⟨_, rfl, ?_, ?_⟩
      · unfold Standing.write
        cases socket .close <;> exact ⟨rfl, rfl⟩
      · unfold Standing.write
        cases socket .close <;> rfl
  | unsubscribe => exact absurd rfl ha

theorem giveUp_eq (hseat : x.session.seat = some tag) :
    Did tag [.unsubscribe] x x.giveUp ∧ x.giveUp.session = ⟨x.session.connection, none⟩ := by
  unfold giveUp
  rw [hseat]
  exact ⟨⟨rfl, rfl⟩, rfl⟩

/-- As long as the seat is not given up, all is carried out up to the first write that fails. -/
theorem performAll_of_notMem (socket : Socket) (h : .unsubscribe ∉ actions)
    (hseat : x.session.seat = some tag) :
    ∃ y, x.performAll socket actions = (y, failure? socket actions) ∧
      Did tag (carriedOut socket actions) x y ∧ y.session = x.session := by
  induction actions generalizing x with
  | nil => exact ⟨x, rfl, Did.nil tag x, rfl⟩
  | cons a rest ih =>
      unfold performAll
      rw [failure?_cons, carriedOut_cons]
      cases hwrite : a.required?.bind socket with
      | some reason =>
          rw [perform_of_fails hwrite]
          exact ⟨x, rfl, Did.nil tag x, rfl⟩
      | none =>
          have ha : a ≠ .unsubscribe := fun heq => h (heq ▸ List.mem_cons_self)
          have hrest : .unsubscribe ∉ rest := fun hmem => h (List.mem_cons_of_mem a hmem)
          rcases perform_of_works hwrite hseat ha with ⟨y, hy, hdid, hsame⟩
          rcases ih hrest (hsame ▸ hseat) with ⟨z, hz, hdid', hsame'⟩
          rw [hy]
          exact ⟨z, hz, hdid.append hdid', hsame'.trans hsame⟩

theorem performAll_farewell (socket : Socket) {e : Event} (he : e.isEnding = true)
    (hseat : x.session.seat = some tag) :
    ∃ y, x.performAll socket e.farewell = (y, none) ∧ Did tag e.farewell x y ∧
      y.session = ⟨x.session.connection, none⟩ := by
  cases e with
  | ended =>
      rcases giveUp_eq hseat with ⟨hdid, hsession⟩
      exact ⟨x.giveUp, rfl, hdid, hsession⟩
  | failed reason =>
      have hworks : (Action.close reason (isTransient reason)).required?.bind socket = none := rfl
      rcases perform_of_works hworks hseat Action.noConfusion with ⟨y, hy, hdid, hsame⟩
      rcases giveUp_eq (hsame ▸ hseat) with ⟨hdid', hsession⟩
      refine ⟨y.giveUp, ?_, hdid.append hdid', by rw [hsession, hsame]⟩
      rw [Event.farewell, performAll, hy]
      rfl
  | opened | text | binary | heard => cases he

end Standing

namespace Session

open Standing

variable {limit : Nat} {socket : Socket} {tag : Tag} {x : Standing} {s : Session}
  {done done' : List Action} {peer : Option PeerId} {e : Event}

/-!
# Single events
-/

theorem Holds.append (hdone : .unsubscribe ∉ done) (h : Holds tag s done') :
    Holds tag s (done ++ done') := by
  cases h with
  | live peer hdone' =>
      apply Holds.live
      rw [List.mem_append, not_or]
      exact ⟨hdone, hdone'⟩
  | closed hbefore =>
      rw [← List.append_assoc]
      apply Holds.closed
      rw [List.mem_append, not_or]
      exact ⟨hdone, hbefore⟩

theorem carriedOut_farewell (socket : Socket) (e : Event) :
    carriedOut socket e.farewell = e.farewell ∧ failure? socket e.farewell = none := by
  cases e <;> exact ⟨rfl, rfl⟩

theorem doings_of_isEnding (h : e.isEnding = true) (socket : Socket) (peer : Option PeerId) :
    doings socket (.live peer) e = e.farewell := by
  rcases carriedOut_farewell socket e with ⟨hall, hworks⟩
  unfold doings
  rw [Connection.step_ending_eq Connection.noConfusion h, hworks, hall, List.append_nil]

theorem holds_farewell (h : e.isEnding = true) : Holds tag ⟨.closed, none⟩ e.farewell := by
  cases e with
  | failed reason =>
      show Holds tag _ ([.close reason (isTransient reason)] ++ [.unsubscribe])
      exact Holds.closed (by simp)
  | ended =>
      show Holds tag _ ([] ++ [.unsubscribe])
      exact Holds.closed List.not_mem_nil
  | opened | text | binary | heard => cases h

theorem react_of_ending (hx : x.session = ⟨.live peer, some tag⟩) (h : e.isEnding = true)
    (socket : Socket) :
    ∃ y, x.react socket e = (y, none) ∧ Did tag e.farewell x y ∧ y.session = ⟨.closed, none⟩ := by
  rcases performAll_farewell socket (x := { x with session := ⟨.closed, some tag⟩ }) h rfl
    with ⟨y, hy, hdid, hsession⟩
  refine ⟨y, ?_, ⟨hdid.groups, hdid.relayed⟩, hsession⟩
  unfold react
  rw [hx, Connection.step_ending_eq Connection.noConfusion h]
  exact hy

theorem react_of_not_ending (hx : x.session = ⟨.live peer, some tag⟩) (h : e.isEnding = false)
    (socket : Socket) :
    ∃ y, x.react socket e = (y, failure? socket (e.script peer)) ∧
      Did tag (carriedOut socket (e.script peer)) x y ∧
      y.session = ⟨.live (peer.or e.revealed?), some tag⟩ := by
  rcases performAll_of_notMem socket
    (x := { x with session := ⟨.live (peer.or e.revealed?), some tag⟩ })
    (Event.unsubscribe_notMem_script peer e) rfl with ⟨y, hy, hdid, hsession⟩
  refine ⟨y, ?_, ⟨hdid.groups, hdid.relayed⟩, hsession⟩
  unfold react
  rw [hx, Connection.step_live_eq peer h]
  exact hy

theorem take_of_live (hx : x.session = ⟨.live peer, some tag⟩) (socket : Socket) (e : Event) :
    Did tag (doings socket x.session.connection e) x (x.take socket e) ∧
      Holds tag (x.take socket e).session (doings socket x.session.connection e) := by
  have hlive : x.session.connection = .live peer := by rw [hx]
  rw [hlive]
  cases hending : e.isEnding with
  | true =>
      rcases react_of_ending hx hending socket with ⟨y, hy, hdid, hsession⟩
      rw [doings_of_isEnding hending, take, hy]
      refine ⟨hdid, ?_⟩
      show Holds tag y.session e.farewell
      rw [hsession]
      exact holds_farewell hending
  | false =>
      have hcarried : .unsubscribe ∉ carriedOut socket (e.script peer) :=
        fun hmem => Event.unsubscribe_notMem_script peer e ((List.takeWhile_prefix _).subset hmem)
      rcases react_of_not_ending hx hending socket with ⟨y, hy, hdid, hsession⟩
      unfold doings
      rw [Connection.step_live_eq peer hending, take, hy]
      cases hfails : failure? socket (e.script peer) with
      | none =>
          show Did tag (_ ++ []) x y ∧ Holds tag y.session (_ ++ [])
          rw [List.append_nil, hsession]
          exact ⟨hdid, Holds.live _ hcarried⟩
      | some reason =>
          rcases react_of_ending hsession (e := .failed reason) rfl socket
            with ⟨z, hz, hdid', hsession'⟩
          have hleave := (carriedOut_farewell socket (.failed reason)).left
          show Did tag (_ ++ carriedOut socket (Event.failed reason).farewell) x
              (y.react socket (.failed reason)).1 ∧
            Holds tag (y.react socket (.failed reason)).1.session
              (_ ++ carriedOut socket (Event.failed reason).farewell)
          rw [hleave, hz]
          refine ⟨hdid.append hdid', ?_⟩
          show Holds tag z.session _
          rw [hsession']
          exact (holds_farewell rfl).append hcarried

/-!
# The loop
-/

/-- One round of the loop: the house as others have left it, how the socket behaves, and what comes
in. -/
structure Lap where
  house : House
  socket : Socket
  input : Input

def heeded? (limit : Nat) : Input → Option Event
  | .heard p => some (.heard p)
  | .read frame => if isTooLong limit frame then none else event? frame

def lap (limit : Nat) (x : Standing) (l : Lap) : Standing :=
  advance limit l.socket { x with house := l.house } l.input

def laps (limit : Nat) (x : Standing) (ls : List Lap) : Standing :=
  ls.foldl (lap limit) x

def Lap.doings (limit : Nat) (c : Connection) (l : Lap) : List Action :=
  if c.isClosed then []
  else
    match heeded? limit l.input with
    | none => []
    | some e => Session.doings l.socket c e

def doneIn (limit : Nat) : Standing → List Lap → List Action
  | _, [] => []
  | x, l :: ls => l.doings limit x.session.connection ++ doneIn limit (lap limit x l) ls

theorem lap_of_closed (hx : x.session = ⟨.closed, none⟩) (limit : Nat) (l : Lap) :
    lap limit x l = { x with house := l.house } ∧ l.doings limit x.session.connection = [] := by
  unfold lap advance Lap.doings
  rw [hx]
  exact ⟨rfl, rfl⟩

theorem advance_of_heeded {input : Input} (hopen : x.session.connection.isClosed = false)
    (he : heeded? limit input = some e) : advance limit socket x input = x.take socket e := by
  unfold advance
  rw [hopen]
  cases input with
  | heard p =>
      cases he
      rfl
  | read frame =>
      cases hlong : isTooLong limit frame with
      | true => simp [heeded?, hlong] at he
      | false =>
          have hevent : event? frame = some e := by simpa [heeded?, hlong] using he
          simp only [hlong, hevent, Bool.false_eq_true, if_false]

theorem advance_of_unheeded (socket : Socket) {input : Input} (hnone : heeded? limit input = none) :
    ∃ dropped, advance limit socket x input =
      { x with
        house := { x.house with meters := { x.house.meters with dropped := dropped } } } := by
  unfold advance
  split
  · exact ⟨x.house.meters.dropped, rfl⟩
  · cases input with
    | heard p => cases hnone
    | read frame =>
        cases hlong : isTooLong limit frame with
        | true =>
            simp only [hlong, if_true]
            exact ⟨_, rfl⟩
        | false =>
            have hevent : event? frame = none := by simpa [heeded?, hlong] using hnone
            simp only [hlong, hevent, Bool.false_eq_true, if_false]
            exact ⟨x.house.meters.dropped, rfl⟩

theorem lap_of_live (hx : x.session = ⟨.live peer, some tag⟩) (limit : Nat) (l : Lap) :
    Did tag (l.doings limit x.session.connection) { x with house := l.house } (lap limit x l) ∧
      Holds tag (lap limit x l).session (l.doings limit x.session.connection) := by
  have hopen : x.session.connection.isClosed = false := by
    rw [hx]
    rfl
  unfold lap Lap.doings
  rw [hopen]
  cases hheeded : heeded? limit l.input with
  | some e =>
      rw [advance_of_heeded (x := { x with house := l.house }) hopen hheeded]
      exact take_of_live (x := { x with house := l.house }) hx l.socket e
  | none =>
      rcases advance_of_unheeded l.socket (x := { x with house := l.house }) hheeded
        with ⟨dropped, hadvance⟩
      rw [hadvance]
      refine ⟨⟨rfl, rfl⟩, ?_⟩
      show Holds tag x.session []
      rw [hx]
      exact Holds.live peer List.not_mem_nil

theorem Holds.lap (h : Holds tag x.session done) (limit : Nat) (l : Lap) :
    Did tag (l.doings limit x.session.connection) { x with house := l.house } (lap limit x l) ∧
      Holds tag (Session.lap limit x l).session (done ++ l.doings limit x.session.connection) := by
  generalize hx : x.session = s at h
  cases h with
  | live peer hdone =>
      rcases lap_of_live hx limit l with ⟨hdid, hholds⟩
      rw [hx] at hdid hholds
      exact ⟨hdid, hholds.append hdone⟩
  | closed hbefore =>
      rcases lap_of_closed hx limit l with ⟨hlap, hdoings⟩
      rw [hx] at hdoings
      rw [hdoings, hlap, List.append_nil]
      refine ⟨⟨rfl, rfl⟩, ?_⟩
      show Holds tag x.session _
      rw [hx]
      exact Holds.closed hbefore

theorem Holds.laps (h : Holds tag x.session done) (limit : Nat) (ls : List Lap) :
    Holds tag (laps limit x ls).session (done ++ doneIn limit x ls) := by
  induction ls generalizing x done with
  | nil =>
      rw [doneIn, List.append_nil]
      exact h
  | cons l ls ih =>
      rw [doneIn, ← List.append_assoc]
      exact ih (h.lap limit l).right

theorem Holds.seat_eq (h : Holds tag s done) :
    s.seat = if s.connection.isClosed then none else some tag := by
  cases h <;> rfl

theorem Holds.done_eq (h : Holds tag s done) :
    ∃ before, done = before ++ (if s.connection.isClosed then [.unsubscribe] else []) ∧
      .unsubscribe ∉ before := by
  cases h with
  | live peer hdone => exact ⟨done, (List.append_nil done).symm, hdone⟩
  | closed hbefore => exact ⟨_, rfl, hbefore⟩

theorem holds_start (socket : Socket) (house : House) (g : GroupName) (hint : Option PeerId) :
    Holds (house.groups.join g).1 (start socket house g hint).session [] := by
  rw [(start_eq socket house g hint).left]
  exact Holds.live hint List.not_mem_nil

end Session

/-!
# Members of the groups
-/

namespace Groups

variable {gs : Groups} {tag : Tag} {done : List Action}

theorem IsSound.run (h : gs.IsSound) (ms : List Groups.Move) : (gs.run ms).2.IsSound := by
  induction ms generalizing gs with
  | nil => exact h
  | cons m ms ih => exact ih (h.move m)

theorem joined_moves (gs : Groups) (tag : Tag) (done : List Action) :
    (gs.run (done.flatMap (Action.moves tag))).2.joined = gs.joined := by
  induction done generalizing gs with
  | nil => rfl
  | cons a done ih =>
      rw [List.flatMap_cons, run_append, ih]
      cases a with
      | publish p => exact joined_publish gs tag p
      | unsubscribe => exact (joined_dropMember _ tag).trans (joined_dropReceiver gs tag)
      | identify | reply | deliver | close => rfl

theorem enrolment?_moves_of_notMem (h : .unsubscribe ∉ done) (t : Tag) :
    (gs.run (done.flatMap (Action.moves tag))).2.enrolment? t = gs.enrolment? t := by
  induction done generalizing gs with
  | nil => rfl
  | cons a done ih =>
      have hrest : .unsubscribe ∉ done := fun hmem => h (List.mem_cons_of_mem a hmem)
      rw [List.flatMap_cons, run_append, ih hrest]
      cases a with
      | publish p => exact enrolment?_publish gs tag t p
      | unsubscribe => exact absurd List.mem_cons_self h
      | identify | reply | deliver | close => rfl

theorem enrolment?_leave (gs : Groups) (tag t : Tag) :
    (gs.leave tag).enrolment? t = if t = tag then none else gs.enrolment? t := by
  rw [leave, enrolment?_dropMember]
  by_cases ht : t = tag
  · rw [if_pos ht, if_pos ht, enrolment?_dropReceiver, if_pos ht]
    cases gs.enrolment? t <;> rfl
  · rw [if_neg ht, if_neg ht, enrolment?_dropReceiver, if_neg ht]

theorem enrolment?_moves {s : Session} (h : Session.Holds tag s done) (t : Tag) :
    (gs.run (done.flatMap (Action.moves tag))).2.enrolment? t =
      if t = tag ∧ s.connection.isClosed then none else gs.enrolment? t := by
  cases h with
  | live peer hdone =>
      rw [enrolment?_moves_of_notMem hdone, if_neg]
      rintro ⟨_, hclosed⟩
      cases hclosed
  | closed hbefore =>
      rw [List.flatMap_append, run_append]
      refine (enrolment?_leave _ tag t).trans ?_
      rw [enrolment?_moves_of_notMem hbefore]
      simp only [Connection.isClosed, and_true]

theorem publish_fst_isSome {live : Bool} {g : GroupName}
    (h : gs.enrolment? tag = if live then some (g, true) else none) (p : Payload) :
    (gs.publish tag p).1.isSome = live := by
  cases live with
  | true =>
      rcases enrolment?_eq_some h with ⟨⟨t, g', n, place⟩, hs, _, hlive⟩
      rcases Option.isSome_iff_exists.mp hlive with ⟨k, rfl⟩
      rw [publish, hs]
      rfl
  | false =>
      have hs : gs.subscription? tag = none := Option.map_eq_none_iff.mp h
      rw [publish, hs]
      rfl

end Groups

namespace Hub

variable {h : Hub} {names : List GroupName}

def Move.group? : Hub.Move → Option GroupName
  | .connect g _ => some g
  | _ => none

/-- The sessions that are open are the members of the groups to which they came. -/
structure IsManned (h : Hub) (names : List GroupName) : Prop where
  sound : h.house.groups.IsSound
  joined : h.house.groups.joined = h.sessions.length
  named : names.length = h.sessions.length
  seated : ∀ i s g, h.session? i = some s → names[i]? = some g →
    (∃ done, Session.Holds ⟨i⟩ s done) ∧
      h.house.groups.enrolment? ⟨i⟩ = if !s.connection.isClosed then some (g, true) else none

theorem isManned_ofLimits (capacity limit : Nat) : (ofLimits capacity limit).IsManned [] where
  sound := Groups.isSound_ofCapacity capacity
  joined := rfl
  named := rfl
  seated _ _ _ hs := by cases hs

theorem IsManned.connect (hmanned : h.IsManned names) (socket : Socket) (g : GroupName)
    (hint : Option PeerId) : (h.connect socket g hint).2.2.IsManned (names ++ [g]) := by
  rcases connect_eq h socket g hint with ⟨hsessions, hgroups⟩
  have htag : (h.house.groups.join g).1 = ⟨h.sessions.length⟩ := by
    rw [← hmanned.joined]
    rfl
  refine ⟨?_, ?_, ?_, ?_⟩
  · show (h.connect socket g hint).2.2.groups.IsSound
    rw [hgroups]
    exact hmanned.sound.join g
  · show (h.connect socket g hint).2.2.groups.joined = _
    rw [hgroups, hsessions, groups, Groups.joined_join, hmanned.joined, List.length_append,
      List.length_singleton]
  · rw [hsessions, List.length_append, List.length_append, hmanned.named]
    rfl
  · intro i s g' hs hg'
    rw [session?, hsessions] at hs
    show _ ∧ (h.connect socket g hint).2.2.groups.enrolment? ⟨i⟩ = _
    rw [hgroups, groups, Groups.enrolment?_join hmanned.sound, htag]
    by_cases hi : i = h.sessions.length
    · subst hi
      rw [List.getElem?_concat_length] at hs
      rw [← hmanned.named, List.getElem?_concat_length] at hg'
      cases hs
      cases hg'
      rw [groups, htag, if_pos rfl]
      exact ⟨⟨[], Session.Holds.live hint List.not_mem_nil⟩, rfl⟩
    · have hlt : i < h.sessions.length := by
        have hle := (List.getElem?_eq_some_iff.mp hs).choose
        rw [List.length_append, List.length_singleton] at hle
        omega
      rw [List.getElem?_append_left hlt] at hs
      rw [List.getElem?_append_left (hmanned.named ▸ hlt)] at hg'
      rw [if_neg fun heq => hi (congrArg Tag.number heq)]
      exact hmanned.seated i s g' hs hg'

theorem IsManned.set {i : Nat} {g : GroupName} {x : Standing} {done : List Action}
    (hmanned : h.IsManned names) (hg : names[i]? = some g)
    (henrolled : h.house.groups.enrolment? ⟨i⟩ = some (g, true))
    (hgroups : x.house.groups = (h.house.groups.run (done.flatMap (Action.moves ⟨i⟩))).2)
    (hholds : Session.Holds ⟨i⟩ x.session done) :
    IsManned { h with house := x.house, sessions := h.sessions.set i x.session } names where
  sound := by
    rw [hgroups]
    exact hmanned.sound.run _
  joined := by
    rw [hgroups, Groups.joined_moves, List.length_set]
    exact hmanned.joined
  named := by
    rw [List.length_set]
    exact hmanned.named
  seated j s g' hs hg' := by
    change (h.sessions.set i x.session)[j]? = some s at hs
    rw [hgroups, Groups.enrolment?_moves hholds]
    by_cases hj : j = i
    · subst hj
      have hlt : j < h.sessions.length := hmanned.named ▸ (List.getElem?_eq_some_iff.mp hg).choose
      rw [List.getElem?_set_self hlt] at hs
      rw [hg] at hg'
      cases hs
      cases hg'
      rw [henrolled]
      refine ⟨⟨done, hholds⟩, ?_⟩
      cases x.session.connection.isClosed <;> simp
    · rw [List.getElem?_set_ne (Ne.symm hj)] at hs
      rw [if_neg fun heq => hj (congrArg Tag.number heq.left)]
      exact hmanned.seated j s g' hs hg'

theorem IsManned.advance (hmanned : h.IsManned names) (socket : Socket) (i : Nat)
    (input : Session.Input) : (h.advance socket i input).2.IsManned names := by
  cases hs : h.session? i with
  | none =>
      rw [Hub.advance, hs]
      exact hmanned
  | some s =>
      have hadvance : (h.advance socket i input).2 =
          { h with
            house := (Session.advance h.limit socket ⟨h.house, s, []⟩ input).house
            sessions := h.sessions.set i
              (Session.advance h.limit socket ⟨h.house, s, []⟩ input).session } := by
        rw [Hub.advance, hs]
      have hlt : i < names.length := by
        rw [hmanned.named]
        exact (List.getElem?_eq_some_iff.mp hs).choose
      have hg := List.getElem?_eq_getElem hlt
      rcases hmanned.seated i s names[i] hs hg with ⟨⟨done, hholds⟩, henrolled⟩
      rw [hadvance]
      cases hholds with
      | closed hbefore =>
          change IsManned { h with sessions := h.sessions.set i ⟨.closed, none⟩ } names
          rw [sessions_set_self hs]
          exact hmanned
      | live peer hdone =>
          rcases Session.lap_of_live (x := ⟨h.house, ⟨.live peer, some ⟨i⟩⟩, []⟩) rfl h.limit
            ⟨h.house, socket, input⟩ with ⟨hdid, hholds⟩
          exact hmanned.set hg henrolled hdid.groups hholds

theorem IsManned.hear (hmanned : h.IsManned names) (socket : Socket) (i : Nat) :
    (h.hear socket i).2.IsManned names := by
  have hreceived : ∀ tag, IsManned
      { h with house := { h.house with groups := (h.house.groups.receive tag).2 } } names := by
    intro tag
    refine ⟨hmanned.sound.receive tag, ?_, hmanned.named, ?_⟩
    · exact (Groups.joined_receive h.house.groups tag).trans hmanned.joined
    · intro j s g hs hg
      show _ ∧ (h.house.groups.receive tag).2.enrolment? ⟨j⟩ = _
      rw [Groups.enrolment?_receive hmanned.sound]
      exact hmanned.seated j s g hs hg
  unfold Hub.hear
  split
  · exact hmanned
  · rename_i tag _
    have htag := hreceived tag
    generalize h.house.groups.receive tag = result at htag
    rcases result with ⟨_ | p, groups⟩
    · exact htag
    · exact htag.advance socket i (.heard p)

theorem IsManned.run (hmanned : h.IsManned names) (ms : List (Socket × Hub.Move)) :
    (h.run ms).2.IsManned (names ++ ms.filterMap fun m => m.2.group?) := by
  induction ms generalizing h names with
  | nil =>
      rw [List.filterMap_nil, List.append_nil]
      exact hmanned
  | cons m ms ih =>
      rcases m with ⟨socket, m⟩
      cases m with
      | connect g hint =>
          have hnext := ih (hmanned.connect socket g hint)
          rw [List.append_assoc] at hnext
          exact hnext
      | read i frame => exact ih (hmanned.advance socket i (.read frame))
      | hear i => exact ih (hmanned.hear socket i)

end Hub

namespace Session

/-- A session has its seat exactly as long as its connection is not closed, whatever comes in,
however its writes turn out, and whatever others do in the house meanwhile. All that it is to
publish and gets to is published, and giving up the seat is done once, at last, when the connection
is closed. So the members of the groups are the sessions that are open. -/
theorem seated_while_open (limit : Nat) (socket : Socket) (house : House) (g : GroupName)
    (hint : Option PeerId) (ls : List Lap) :
    let tag := (house.groups.join g).1
    let x := laps limit (start socket house g hint) ls
    let closed := x.session.connection.isClosed
    x.session.seat = (if closed then none else some tag) ∧
      (∀ l : Lap,
        let done := l.doings limit x.session.connection
        (lap limit x l).house.groups =
            (l.house.groups.run (done.flatMap (Action.moves tag))).2 ∧
          (lap limit x l).house.meters.relayed =
            l.house.meters.relayed + (done.filterMap Action.payload?).length) ∧
      (∃ before, doneIn limit (start socket house g hint) ls =
          before ++ (if closed then [.unsubscribe] else []) ∧ .unsubscribe ∉ before) ∧
      ∀ capacity (ms : List (Socket × Hub.Move)) (i : Nat) s g',
        let h := ((Hub.ofLimits capacity limit).run ms).2
        h.session? i = some s → (ms.filterMap fun m => m.2.group?)[i]? = some g' →
          s.seat = (if s.connection.isClosed then none else some ⟨i⟩) ∧
            h.house.groups.enrolment? ⟨i⟩ =
              (if !s.connection.isClosed then some (g', true) else none) ∧
            ∀ p, (h.house.groups.publish ⟨i⟩ p).1.isSome = !s.connection.isClosed := by
  intro tag x closed
  have hholds := (holds_start socket house g hint).laps limit ls
  rw [List.nil_append] at hholds
  refine ⟨hholds.seat_eq, ?_, hholds.done_eq, ?_⟩
  · intro l done
    rcases (hholds.lap limit l).left with ⟨hgroups, hrelayed⟩
    exact ⟨hgroups, hrelayed⟩
  · intro capacity ms i s g' h hs hg'
    rcases ((Hub.isManned_ofLimits capacity limit).run ms).seated i s g' hs hg'
      with ⟨⟨done, hseated⟩, henrolled⟩
    exact ⟨hseated.seat_eq, henrolled, Groups.publish_fst_isSome henrolled⟩

/-- A pong that is lost costs a session its seat; the other session of the group keeps its own. -/
theorem seated_while_open_of_lost_pong :
    let works : Socket := fun _ => none
    let breaks : Socket := fun _ => some "broken pipe"
    let one : GroupName := ⟨"one"⟩
    let house : House := ⟨Groups.ofCapacity 4, {}⟩
    let ping := Incoming.binary (List.replicate 24 7)
    let x := start works house one none
    let ls : List Lap :=
      [⟨house, works, .read (.text "hello")⟩, ⟨house, breaks, .read ping⟩,
        ⟨house, works, .read (.text "late")⟩]
    let ms : List (Socket × Hub.Move) :=
      [(works, .connect one none), (works, .connect one none), (breaks, .read 0 ping)]
    let h := ((Hub.ofLimits 4 100).run ms).2
    (laps 100 x ls).session.seat = none ∧ (doneIn 100 x ls).count .unsubscribe = 1 ∧
      h.house.groups.enrolment? ⟨0⟩ = none ∧
      ∀ p, (h.house.groups.publish ⟨1⟩ p).1.isSome = true := by
  intro works breaks one house ping x ls ms h
  rcases seated_while_open 100 works house one none ls
    with ⟨hseat, _, ⟨before, hdone, hfirst⟩, hhub⟩
  have hclosed : (laps 100 x ls).session.connection.isClosed = true := by decide +kernel
  have hlost : h.session? 0 = some ⟨.closed, none⟩ := by decide +kernel
  have hkept : h.session? 1 = some ⟨.live none, some ⟨1⟩⟩ := by decide +kernel
  refine ⟨?_, ?_, ?_, ?_⟩
  · exact hseat.trans (if_pos hclosed)
  · show (doneIn 100 (start works house one none) ls).count .unsubscribe = 1
    rw [hdone, if_pos hclosed, List.count_append, List.count_eq_zero_of_not_mem hfirst]
    rfl
  · exact (hhub 4 ms 0 _ one hlost rfl).right.left
  · exact (hhub 4 ms 1 _ one hkept rfl).right.right

end Session
end Relay
end Parley
