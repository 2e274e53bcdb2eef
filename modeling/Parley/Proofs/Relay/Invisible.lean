import Parley.Proofs.Relay.Seat

/-!
# Frames that nobody sees

Frames that are too long, and the pings and pongs of the transport, make no difference
to what a session does, nor to any other session: without them all goes on in the same
way. All that is left of a frame that is too long is that it is counted.
-/

namespace Parley
namespace Relay

namespace Incoming

def payload? : Incoming → Option Payload
  | .text s => some (.text s)
  | .binary bytes => some (.binary bytes)
  | _ => none

def isOversized (limit : Nat) (frame : Incoming) : Bool :=
  frame.payload?.any fun p => limit < p.size

def isControl : Incoming → Bool
  | .ping _ | .pong _ => true
  | _ => false

def isInvisible (limit : Nat) (frame : Incoming) : Bool :=
  frame.isOversized limit || frame.isControl

theorem isTooLong_eq (limit : Nat) (frame : Incoming) :
    Session.isTooLong limit frame = frame.isOversized limit := by
  cases frame <;> rfl

theorem event?_isNone (frame : Incoming) : (Session.event? frame).isNone = frame.isControl := by
  cases frame <;> rfl

end Incoming

/-!
# Houses but for the meter
-/

namespace House

def withDropped (n : Nat) (h : House) : House :=
  { h with meters := { h.meters with dropped := n } }

end House

namespace Standing

variable {limit : Nat} {socket : Socket} {x y : Standing}

def withDropped (n : Nat) (x : Standing) : Standing :=
  { x with house := x.house.withDropped n }

theorem withDropped_self (x : Standing) : x.withDropped x.house.meters.dropped = x :=
  rfl

theorem write_withDropped (n : Nat) (socket : Socket) (out : Outgoing) (counted : Meters → Meters)
    (hcounted : ∀ m : Meters, counted { m with dropped := n } = { counted m with dropped := n })
    (x : Standing) :
    (x.withDropped n).write socket out counted =
      ((x.write socket out counted).1.withDropped n, (x.write socket out counted).2) := by
  unfold write
  cases socket out with
  | some reason => rfl
  | none =>
      have hmeters := hcounted x.house.meters
      simp only [withDropped, House.withDropped, hmeters]

theorem publish_withDropped (n : Nat) (p : Payload) (x : Standing) :
    (x.withDropped n).publish p = (x.publish p).withDropped n := by
  rcases x with ⟨house, ⟨connection, _ | tag⟩, written⟩ <;> rfl

theorem giveUp_withDropped (n : Nat) (x : Standing) :
    (x.withDropped n).giveUp = x.giveUp.withDropped n := by
  rcases x with ⟨house, ⟨connection, _ | tag⟩, written⟩ <;> rfl

theorem perform_withDropped (n : Nat) (socket : Socket) (a : Action) (x : Standing) :
    (x.withDropped n).perform socket a =
      ((x.perform socket a).1.withDropped n, (x.perform socket a).2) := by
  cases a with
  | identify peer => rfl
  | publish p => rw [perform, perform, publish_withDropped]
  | reply s =>
      rw [perform, perform]
      exact write_withDropped n socket _ _ (fun _ => rfl) x
  | deliver p =>
      rw [perform, perform]
      exact write_withDropped n socket _ _ (fun _ => rfl) x
  | close reason transient =>
      rw [perform, perform, write_withDropped n socket .close id (fun _ => rfl)]
  | unsubscribe => rw [perform, perform, giveUp_withDropped]

theorem performAll_withDropped (n : Nat) (socket : Socket) (actions : List Action)
    (x : Standing) :
    (x.withDropped n).performAll socket actions =
      ((x.performAll socket actions).1.withDropped n, (x.performAll socket actions).2) := by
  induction actions generalizing x with
  | nil => rfl
  | cons a rest ih =>
      rw [performAll, performAll, perform_withDropped]
      rcases x.perform socket a with ⟨y, _ | reason⟩
      · exact ih y
      · rfl

theorem react_withDropped (n : Nat) (socket : Socket) (e : Event) (x : Standing) :
    (x.withDropped n).react socket e =
      ((x.react socket e).1.withDropped n, (x.react socket e).2) := by
  unfold react
  exact performAll_withDropped n socket _
    { x with session := { x.session with connection := (x.session.connection.step e).1 } }

theorem take_withDropped (n : Nat) (socket : Socket) (e : Event) (x : Standing) :
    (x.withDropped n).take socket e = (x.take socket e).withDropped n := by
  rw [take, take, react_withDropped]
  rcases x.react socket e with ⟨y, _ | reason⟩
  · rfl
  · dsimp only
    rw [react_withDropped]

theorem dropped_take (socket : Socket) (e : Event) (x : Standing) :
    (x.take socket e).house.meters.dropped = x.house.meters.dropped := by
  have htake := take_withDropped x.house.meters.dropped socket e x
  rw [withDropped_self] at htake
  rw [htake]
  rfl

/-- All is the same but for the frames that were dropped. -/
def Alike (x y : Standing) : Prop :=
  ∃ n, y = x.withDropped n

theorem Alike.refl (x : Standing) : x.Alike x :=
  ⟨_, x.withDropped_self.symm⟩

theorem Alike.take (h : x.Alike y) (socket : Socket) (e : Event) :
    (x.take socket e).Alike (y.take socket e) := by
  obtain ⟨n, rfl⟩ := h
  exact ⟨n, take_withDropped n socket e x⟩

theorem Alike.session_eq (h : x.Alike y) : y.session = x.session := by
  obtain ⟨n, rfl⟩ := h
  rfl

end Standing

/-!
# One session
-/

namespace Session

open Standing

variable {limit : Nat} {socket : Socket} {x y : Standing} {input : Input}

namespace Input

def isOversized (limit : Nat) : Input → Bool
  | .read frame => frame.isOversized limit
  | .heard _ => false

/-- What a session may as well not get. -/
def isInvisible (limit : Nat) : Input → Bool
  | .read frame => frame.isInvisible limit
  | .heard _ => false

end Input

theorem heeded?_isNone (limit : Nat) (input : Input) :
    (heeded? limit input).isNone = input.isInvisible limit := by
  cases input with
  | heard p => rfl
  | read frame =>
      rw [heeded?, Incoming.isTooLong_eq, Input.isInvisible, Incoming.isInvisible]
      cases frame.isOversized limit with
      | true => rfl
      | false => exact frame.event?_isNone

def deeds (limit : Nat) : Standing → List (Socket × Input) → List Action
  | _, [] => []
  | x, (socket, input) :: rest =>
    Lap.doings limit x.session.connection ⟨x.house, socket, input⟩ ++
      deeds limit (advance limit socket x input) rest

/-- What comes in before the session is closed. -/
def beforeClosing (limit : Nat) : Standing → List (Socket × Input) → List (Socket × Input)
  | _, [] => []
  | x, (socket, input) :: rest =>
    if x.session.connection.isClosed then []
    else (socket, input) :: beforeClosing limit (advance limit socket x input) rest

theorem advance_of_closed (limit : Nat) (socket : Socket) (input : Input)
    (hclosed : x.session.connection.isClosed = true) : advance limit socket x input = x := by
  unfold advance
  rw [if_pos hclosed]

theorem advance_of_invisible (socket : Socket) (hopen : x.session.connection.isClosed = false)
    (hinvisible : input.isInvisible limit = true) :
    advance limit socket x input =
      x.withDropped (x.house.meters.dropped + if input.isOversized limit then 1 else 0) := by
  cases input with
  | heard p => cases hinvisible
  | read frame =>
      unfold advance
      simp only [hopen, Incoming.isTooLong_eq, Bool.false_eq_true, if_false]
      by_cases hlong : frame.isOversized limit = true
      · have hcounted : (Input.read frame).isOversized limit = true := hlong
        rw [if_pos hlong, if_pos hcounted]
        rfl
      · have huncounted : ¬(Input.read frame).isOversized limit = true := hlong
        have hcontrol : frame.isControl = true := by
          simpa [Input.isInvisible, Incoming.isInvisible, hlong] using hinvisible
        have hevent : event? frame = none := by
          rwa [← Option.isNone_iff_eq_none, frame.event?_isNone]
        rw [if_neg hlong, if_neg huncounted, hevent]
        rfl

theorem heeded_of_visible (hvisible : input.isInvisible limit = false) :
    ∃ e, heeded? limit input = some e := by
  rw [← heeded?_isNone, Option.isNone_eq_false_iff] at hvisible
  exact Option.isSome_iff_exists.mp hvisible

theorem not_isOversized_of_visible (hvisible : input.isInvisible limit = false) :
    input.isOversized limit = false := by
  cases input with
  | heard p => rfl
  | read frame => exact (Bool.or_eq_false_iff.mp hvisible).left

theorem dropped_advance (socket : Socket) (hopen : x.session.connection.isClosed = false) :
    (advance limit socket x input).house.meters.dropped =
      x.house.meters.dropped + if input.isOversized limit then 1 else 0 := by
  cases hinvisible : input.isInvisible limit with
  | true =>
      rw [advance_of_invisible socket hopen hinvisible]
      rfl
  | false =>
      obtain ⟨e, he⟩ := heeded_of_visible hinvisible
      rw [advance_of_heeded hopen he, dropped_take, not_isOversized_of_visible hinvisible]
      rfl

theorem alike_advance (h : x.Alike y) (socket : Socket)
    (hvisible : input.isInvisible limit = false) :
    (advance limit socket x input).Alike (advance limit socket y input) := by
  have hsession := h.session_eq
  cases hclosed : x.session.connection.isClosed with
  | true =>
      rw [advance_of_closed limit socket input hclosed,
        advance_of_closed limit socket input (hsession ▸ hclosed)]
      exact h
  | false =>
      obtain ⟨e, he⟩ := heeded_of_visible hvisible
      rw [advance_of_heeded hclosed he, advance_of_heeded (hsession ▸ hclosed) he]
      exact h.take socket e

theorem alike_skip (h : x.Alike y) (socket : Socket) (hinvisible : input.isInvisible limit = true) :
    x.Alike (advance limit socket y input) := by
  cases hclosed : y.session.connection.isClosed with
  | true =>
      rw [advance_of_closed limit socket input hclosed]
      exact h
  | false =>
      obtain ⟨n, rfl⟩ := h
      rw [advance_of_invisible socket hclosed hinvisible]
      exact ⟨_, rfl⟩

theorem doings_of_invisible (c : Connection) {l : Lap}
    (hinvisible : l.input.isInvisible limit = true) : l.doings limit c = [] := by
  rw [← heeded?_isNone, Option.isNone_iff_eq_none] at hinvisible
  rw [Lap.doings, hinvisible, ite_self]

/-- What should not be seen can be left out: the session ends up alike and has done the same. -/
theorem alike_run (h : x.Alike y) (limit : Nat) (inputs : List (Socket × Input)) :
    let visible := inputs.filter fun i => !i.2.isInvisible limit
    (run limit x visible).Alike (run limit y inputs) ∧
      deeds limit x visible = deeds limit y inputs := by
  induction inputs generalizing x y with
  | nil => exact ⟨h, rfl⟩
  | cons i rest ih =>
      obtain ⟨socket, input⟩ := i
      cases hinput : input.isInvisible limit with
      | true =>
          rw [List.filter_cons_of_neg (by simp [hinput])]
          rcases ih (alike_skip h socket hinput) with ⟨hrun, hdeeds⟩
          refine ⟨hrun, ?_⟩
          show _ = Lap.doings limit _ ⟨y.house, socket, input⟩ ++ _
          rw [doings_of_invisible _ hinput]
          exact hdeeds
      | false =>
          rw [List.filter_cons_of_pos (by simp [hinput])]
          rcases ih (alike_advance h socket hinput) with ⟨hrun, hdeeds⟩
          refine ⟨hrun, ?_⟩
          show Lap.doings limit x.session.connection ⟨x.house, socket, input⟩ ++ _ =
            Lap.doings limit y.session.connection ⟨y.house, socket, input⟩ ++ _
          rw [h.session_eq]
          exact congrArg _ hdeeds

theorem beforeClosing_of_closed (limit : Nat) (inputs : List (Socket × Input))
    (hclosed : x.session.connection.isClosed = true) :
    beforeClosing limit x inputs = [] ∧ run limit x inputs = x := by
  induction inputs with
  | nil => exact ⟨rfl, rfl⟩
  | cons i rest ih =>
      obtain ⟨socket, input⟩ := i
      rw [beforeClosing, if_pos hclosed, run, advance_of_closed limit socket input hclosed]
      exact ⟨rfl, ih.right⟩

theorem dropped_run (limit : Nat) (x : Standing) (inputs : List (Socket × Input)) :
    (run limit x inputs).house.meters.dropped =
      x.house.meters.dropped +
        (beforeClosing limit x inputs).countP fun i => i.2.isOversized limit := by
  induction inputs generalizing x with
  | nil => rfl
  | cons i rest ih =>
      obtain ⟨socket, input⟩ := i
      cases hclosed : x.session.connection.isClosed with
      | true =>
          rcases beforeClosing_of_closed limit ((socket, input) :: rest) hclosed
            with ⟨hnone, hrun⟩
          rw [hnone, hrun]
          rfl
      | false =>
          rw [run, ih, dropped_advance socket hclosed, beforeClosing, hclosed,
            if_neg Bool.false_ne_true, List.countP_cons, Nat.add_assoc, Nat.add_comm (ite _ _ _)]

theorem isPrefix_beforeClosing (limit : Nat) (x : Standing) (inputs : List (Socket × Input)) :
    beforeClosing limit x inputs <+: inputs := by
  induction inputs generalizing x with
  | nil => exact List.prefix_rfl
  | cons i rest ih =>
      obtain ⟨socket, input⟩ := i
      unfold beforeClosing
      split
      · exact List.nil_prefix
      · exact (List.prefix_cons_inj _).mpr (ih _)

theorem dropped_run_of_visible (limit : Nat) (x : Standing) {inputs : List (Socket × Input)}
    (h : ∀ i ∈ inputs, i.2.isInvisible limit = false) :
    (run limit x inputs).house.meters.dropped = x.house.meters.dropped := by
  rw [dropped_run, List.countP_eq_zero.mpr, Nat.add_zero]
  intro i hi
  rw [not_isOversized_of_visible (h i ((isPrefix_beforeClosing limit x inputs).subset hi))]
  exact Bool.false_ne_true

end Session

/-!
# The hub
-/

namespace Hub

open Session

variable {h k : Hub} {socket : Socket} {i : Nat}

def Move.isInvisible (limit : Nat) : Hub.Move → Bool
  | .read _ frame => frame.isInvisible limit
  | _ => false

def withDropped (n : Nat) (h : Hub) : Hub :=
  { h with house := h.house.withDropped n }

/-- All is the same but for the frames that were dropped. -/
def Alike (h k : Hub) : Prop :=
  ∃ n, k = h.withDropped n

theorem Alike.refl (h : Hub) : h.Alike h :=
  ⟨h.house.meters.dropped, rfl⟩

theorem advance_of_none (hs : h.session? i = none) (socket : Socket) (input : Input) :
    h.advance socket i input = ([], h) := by
  rw [advance, hs]

theorem advance_of_some {s : Session} (hs : h.session? i = some s) (socket : Socket)
    (input : Input) :
    h.advance socket i input =
      let x := Session.advance h.limit socket ⟨h.house, s, []⟩ input
      (x.written, { h with house := x.house, sessions := h.sessions.set i x.session }) := by
  rw [advance, hs]

def AlikeMoves (left right : Nat × List Outgoing × Hub) : Prop :=
  left.1 = right.1 ∧ left.2.1 = right.2.1 ∧ left.2.2.Alike right.2.2

theorem alike_advance (hk : h.Alike k) (socket : Socket) (i : Nat) {input : Input}
    (hvisible : input.isInvisible h.limit = false) :
    (h.advance socket i input).1 = (k.advance socket i input).1 ∧
      (h.advance socket i input).2.Alike (k.advance socket i input).2 := by
  obtain ⟨n, rfl⟩ := hk
  cases hs : h.session? i with
  | none =>
      rw [advance_of_none hs, advance_of_none (h := h.withDropped n) hs]
      exact ⟨rfl, n, rfl⟩
  | some s =>
      have hstart : Standing.Alike ⟨h.house, s, []⟩ ⟨(h.withDropped n).house, s, []⟩ := ⟨n, rfl⟩
      obtain ⟨m, hm⟩ := Session.alike_advance hstart socket hvisible
      change Session.advance (h.withDropped n).limit socket _ input = _ at hm
      rw [advance_of_some hs, advance_of_some (h := h.withDropped n) hs, hm]
      exact ⟨rfl, m, rfl⟩

theorem alike_skip (hk : h.Alike k) (socket : Socket) (i : Nat) {input : Input}
    (hinvisible : input.isInvisible h.limit = true) :
    (k.advance socket i input).1 = [] ∧ h.Alike (k.advance socket i input).2 := by
  obtain ⟨n, rfl⟩ := hk
  cases hs : h.session? i with
  | none =>
      rw [advance_of_none (h := h.withDropped n) hs]
      exact ⟨rfl, n, rfl⟩
  | some s =>
      have hstart : Standing.Alike ⟨h.house, s, []⟩ ⟨(h.withDropped n).house, s, []⟩ := ⟨n, rfl⟩
      obtain ⟨m, hm⟩ := Session.alike_skip hstart socket hinvisible
      change Session.advance (h.withDropped n).limit socket _ input = _ at hm
      rw [advance_of_some (h := h.withDropped n) hs, hm]
      refine ⟨rfl, m, ?_⟩
      show { h.withDropped m with sessions := h.sessions.set i s } = h.withDropped m
      rw [sessions_set_self hs]
      rfl

theorem alike_connect (hk : h.Alike k) (socket : Socket) (g : GroupName) (hint : Option PeerId) :
    AlikeMoves (h.connect socket g hint) (k.connect socket g hint) := by
  obtain ⟨n, rfl⟩ := hk
  have hstart : Session.start socket (h.withDropped n).house g hint =
      (Session.start socket h.house g hint).withDropped n :=
    Standing.take_withDropped n socket (.opened hint)
      ⟨⟨(h.house.groups.join g).2,
        { h.house.meters with connections := h.house.meters.connections + 1 }⟩,
        ⟨.connecting, some (h.house.groups.join g).1⟩, []⟩
  unfold connect
  rw [hstart]
  exact ⟨rfl, rfl, n, rfl⟩

theorem hear_of_nothing {tag : Tag} {gs : Groups} (socket : Socket)
    (hseat : (h.session? i).bind (·.seat) = some tag)
    (hreceive : h.house.groups.receive tag = (none, gs)) :
    h.hear socket i = ([], { h with house := { h.house with groups := gs } }) := by
  simp only [hear, hseat, hreceive]

theorem hear_of_message {tag : Tag} {gs : Groups} {p : Payload} (socket : Socket)
    (hseat : (h.session? i).bind (·.seat) = some tag)
    (hreceive : h.house.groups.receive tag = (some p, gs)) :
    h.hear socket i =
      advance { h with house := { h.house with groups := gs } } socket i (.heard p) := by
  simp only [hear, hseat, hreceive]

theorem alike_hear (hk : h.Alike k) (socket : Socket) (i : Nat) :
    (h.hear socket i).1 = (k.hear socket i).1 ∧ (h.hear socket i).2.Alike (k.hear socket i).2 := by
  obtain ⟨n, rfl⟩ := hk
  cases hseat : (h.session? i).bind (·.seat) with
  | none =>
      rw [(hear_of_no_seat socket hseat).left,
        (hear_of_no_seat (h := h.withDropped n) socket hseat).left]
      exact ⟨rfl, n, rfl⟩
  | some tag =>
      rcases hreceive : h.house.groups.receive tag with ⟨_ | p, gs⟩
      · rw [hear_of_nothing socket hseat hreceive,
          hear_of_nothing (h := h.withDropped n) socket hseat hreceive]
        exact ⟨rfl, n, rfl⟩
      · rw [hear_of_message socket hseat hreceive,
          hear_of_message (h := h.withDropped n) socket hseat hreceive]
        exact alike_advance ⟨n, rfl⟩ socket i rfl

theorem alike_move (hk : h.Alike k) (socket : Socket) {m : Hub.Move}
    (hvisible : m.isInvisible h.limit = false) :
    AlikeMoves (h.move socket m) (k.move socket m) := by
  cases m with
  | connect g hint => exact alike_connect hk socket g hint
  | read i frame => exact ⟨rfl, alike_advance hk socket i hvisible⟩
  | hear i => exact ⟨rfl, alike_hear hk socket i⟩

theorem alike_move_skip (hk : h.Alike k) (socket : Socket) {m : Hub.Move}
    (hinvisible : m.isInvisible h.limit = true) :
    (k.move socket m).2.1 = [] ∧ h.Alike (k.move socket m).2.2 := by
  cases m with
  | read i frame => exact alike_skip hk socket i hinvisible
  | connect | hear => cases hinvisible

theorem limit_move (h : Hub) (socket : Socket) (m : Hub.Move) :
    (h.move socket m).2.2.limit = h.limit := by
  have hadvance : ∀ (h : Hub) i input, (h.advance socket i input).2.limit = h.limit := by
    intro h i input
    cases hs : h.session? i with
    | none => rw [advance_of_none hs]
    | some s => rw [advance_of_some hs]
  cases m with
  | connect g hint => rfl
  | read i frame => exact hadvance h i (.read frame)
  | hear i =>
      show (h.hear socket i).2.limit = h.limit
      cases hseat : (h.session? i).bind (·.seat) with
      | none => rw [(hear_of_no_seat socket hseat).left]
      | some tag =>
          rcases hreceive : h.house.groups.receive tag with ⟨_ | p, gs⟩
          · rw [hear_of_nothing socket hseat hreceive]
          · rw [hear_of_message socket hseat hreceive]
            exact hadvance _ i (.heard p)

def writes (h : Hub) (ms : List (Socket × Hub.Move)) : List (Nat × List Outgoing) :=
  (h.run ms).1.filter fun w => !w.2.isEmpty

theorem writes_cons (h : Hub) (socket : Socket) (m : Hub.Move) (rest : List (Socket × Hub.Move)) :
    h.writes ((socket, m) :: rest) =
      [((h.move socket m).1, (h.move socket m).2.1)].filter (fun w => !w.2.isEmpty) ++
        (h.move socket m).2.2.writes rest := by
  have hrun : (h.run ((socket, m) :: rest)).1 =
      [((h.move socket m).1, (h.move socket m).2.1)] ++ ((h.move socket m).2.2.run rest).1 := rfl
  rw [writes, hrun, List.filter_append]
  rfl

/-- Nobody writes anything else if nobody gets what should not be seen. -/
theorem alike_run (hk : h.Alike k) (ms : List (Socket × Hub.Move)) :
    let visible := ms.filter fun m => !m.2.isInvisible h.limit
    h.writes visible = k.writes ms ∧ (h.run visible).2.Alike (k.run ms).2 := by
  induction ms generalizing h k with
  | nil => exact ⟨rfl, hk⟩
  | cons m rest ih =>
      obtain ⟨socket, m⟩ := m
      cases hm : m.isInvisible h.limit with
      | true =>
          rcases alike_move_skip hk socket hm with ⟨hnothing, hnext⟩
          rcases ih hnext with ⟨hwrites, hrun⟩
          rw [List.filter_cons_of_neg (by simp [hm])]
          refine ⟨?_, hrun⟩
          rw [writes_cons, hnothing]
          exact hwrites
      | false =>
          rcases alike_move hk socket hm with ⟨hnumber, hsame, hnext⟩
          rcases ih hnext with ⟨hwrites, hrun⟩
          rw [limit_move] at hwrites hrun
          rw [List.filter_cons_of_pos (by simp [hm])]
          refine ⟨?_, hrun⟩
          rw [writes_cons, writes_cons, hnumber, hsame]
          exact congrArg _ hwrites

/-!
## Frames that are counted
-/

def frameRead? (h : Hub) : Hub.Move → Option Incoming
  | .read i frame => if h.isOpen i then some frame else none
  | _ => none

def framesRead : Hub → List (Socket × Hub.Move) → List Incoming
  | _, [] => []
  | h, (socket, m) :: rest => (h.frameRead? m).toList ++ framesRead (h.move socket m).2.2 rest

theorem dropped_hub_advance (h : Hub) (socket : Socket) (i : Nat) (input : Input) :
    (h.advance socket i input).2.house.meters.dropped =
      h.house.meters.dropped + if h.isOpen i && input.isOversized h.limit then 1 else 0 := by
  cases hs : h.session? i with
  | none =>
      have hisOpen : h.isOpen i = false := by rw [isOpen, hs]
      rw [advance_of_none hs, hisOpen]
      rfl
  | some s =>
      have hisOpen : h.isOpen i = !s.connection.isClosed := by rw [isOpen, hs]
      rw [advance_of_some hs, hisOpen]
      show (Session.advance h.limit socket ⟨h.house, s, []⟩ input).house.meters.dropped = _
      cases hclosed : s.connection.isClosed with
      | true =>
          rw [advance_of_closed h.limit socket input hclosed]
          rfl
      | false => exact dropped_advance socket hclosed

theorem dropped_hear (h : Hub) (socket : Socket) (i : Nat) :
    (h.hear socket i).2.house.meters.dropped = h.house.meters.dropped := by
  cases hseat : (h.session? i).bind (·.seat) with
  | none => rw [(hear_of_no_seat socket hseat).left]
  | some tag =>
      rcases hreceive : h.house.groups.receive tag with ⟨_ | p, gs⟩
      · rw [hear_of_nothing socket hseat hreceive]
      · rw [hear_of_message socket hseat hreceive, dropped_hub_advance, Input.isOversized,
          Bool.and_false, if_neg Bool.false_ne_true, Nat.add_zero]

theorem dropped_move (h : Hub) (socket : Socket) (m : Hub.Move) :
    (h.move socket m).2.2.house.meters.dropped =
      h.house.meters.dropped + (h.frameRead? m).toList.countP (Incoming.isOversized h.limit) := by
  cases m with
  | connect g hint => exact Standing.dropped_take socket (.opened hint) _
  | hear i => exact dropped_hear h socket i
  | read i frame =>
      refine (dropped_hub_advance h socket i (.read frame)).trans ?_
      rw [frameRead?, Input.isOversized]
      cases h.isOpen i with
      | true => simp [List.countP_cons]
      | false => rfl

theorem dropped_hub_run (h : Hub) (ms : List (Socket × Hub.Move)) :
    (h.run ms).2.house.meters.dropped =
      h.house.meters.dropped + (h.framesRead ms).countP (Incoming.isOversized h.limit) := by
  induction ms generalizing h with
  | nil => rfl
  | cons m rest ih =>
      obtain ⟨socket, m⟩ := m
      have hrun : (h.run ((socket, m) :: rest)).2 = ((h.move socket m).2.2.run rest).2 := rfl
      rw [hrun, ih, limit_move, dropped_move, framesRead, List.countP_append, Nat.add_assoc]

end Hub

namespace Session

open Standing

/-- A session that gets all frames does and writes what it does and writes without those of the
transport and those that are longer than the limit, and ends up the same: only the latter ones
that came in before it was closed were counted. And so do all sessions of a hub together, in
whatever order their frames come in. -/
theorem run_without_invisible (limit : Nat) (x : Standing) (inputs : List (Socket × Input)) :
    let visible := inputs.filter fun i => !i.2.isInvisible limit
    let oversized := (beforeClosing limit x inputs).countP fun i => i.2.isOversized limit
    deeds limit x inputs = deeds limit x visible ∧
      run limit x inputs =
        (run limit x visible).withDropped (x.house.meters.dropped + oversized) ∧
      (run limit x visible).house.meters.dropped = x.house.meters.dropped ∧
      ∀ (house : House) (sessions : List Session) (ms : List (Socket × Hub.Move)),
        let h : Hub := ⟨house, sessions, limit⟩
        let visible := ms.filter fun m => !m.2.isInvisible limit
        let oversized := (h.framesRead ms).countP (Incoming.isOversized limit)
        h.writes ms = h.writes visible ∧
          (h.run ms).2 = (h.run visible).2.withDropped (house.meters.dropped + oversized) := by
  intro visible oversized
  have hdropped := dropped_run limit x inputs
  obtain ⟨⟨n, hn⟩, hdeeds⟩ := alike_run (.refl x) limit inputs
  refine ⟨hdeeds.symm, ?_, ?_, ?_⟩
  · rw [hn] at hdropped ⊢
    exact congrArg (fun n => (run limit x visible).withDropped n) hdropped
  · apply dropped_run_of_visible
    intro i hi
    exact (Bool.not_eq_true' _).mp (List.mem_filter.mp hi).right
  · intro house sessions ms h visible oversized
    have hdropped := h.dropped_hub_run ms
    obtain ⟨hwrites, n, hn⟩ := Hub.alike_run (.refl h) ms
    refine ⟨hwrites.symm, ?_⟩
    rw [hn] at hdropped ⊢
    exact congrArg (fun n => (h.run visible).2.withDropped n) hdropped

end Session
end Relay
end Parley
