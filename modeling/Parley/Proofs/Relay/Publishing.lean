import Mathlib.Data.List.TakeWhile
import Parley.Proofs.Relay.Invisible
import Parley.Proofs.Relay.Registry

/-!
# What becomes of what is to be published

An open session publishes all that a frame asks for, and the other members of its group
have it before them, unless the frame is a ping and its pong cannot be written: then the
session leaves, and the head of the ping is published to nobody.
-/

namespace Parley
namespace Relay

namespace Groups

variable {gs : Groups}

theorem room_run (gs : Groups) (ms : List Groups.Move) : (gs.run ms).2.room = gs.room := by
  induction ms generalizing gs with
  | nil => rfl
  | cons m ms ih =>
      have hrest : (gs.run (m :: ms)).2 = ((gs.move m).2.run ms).2 := rfl
      rw [hrest, ih, room_move]

end Groups

namespace Session

open Standing

variable {limit : Nat} {socket : Socket} {x : Standing} {peer : Option PeerId} {tag : Tag}
  {e : Event}

/-- Whether and why the pong of a frame cannot be written. -/
def lostPong? (socket : Socket) (e : Event) : Option String :=
  e.answer?.bind fun pong => socket (.frame (.text pong))

theorem failure?_append (socket : Socket) (actions rest : List Action) :
    failure? socket (actions ++ rest) = (failure? socket actions).or (failure? socket rest) :=
  List.findSome?_append

theorem failure?_of_required?_eq_none {actions : List Action}
    (h : ∀ a ∈ actions, a.required? = none) (socket : Socket) : failure? socket actions = none := by
  apply List.findSome?_eq_none_iff.mpr
  intro a ha
  rw [h a ha]
  rfl

theorem carriedOut_of_works {actions : List Action} (h : failure? socket actions = none) :
    carriedOut socket actions = actions := by
  apply List.takeWhile_eq_self_iff.mpr
  intro a ha
  rw [List.findSome?_eq_none_iff.mp h a ha]
  rfl

theorem carriedOut_append_cons {before rest : List Action} {a : Action}
    (hbefore : failure? socket before = none) (ha : (a.required?.bind socket).isSome) :
    carriedOut socket (before ++ a :: rest) = before := by
  have hfails : (a.required?.bind socket).isNone = false := by
    rw [Option.isNone_eq_false_iff]
    exact ha
  have hworks : ∀ b ∈ before, (b.required?.bind socket).isNone = true := by
    intro b hb
    rw [List.findSome?_eq_none_iff.mp hbefore b hb]
    rfl
  rw [carriedOut, List.takeWhile_append_of_pos hworks,
    List.takeWhile_cons_of_neg (by simp [hfails]), List.append_nil]

theorem flatMap_moves {done : List Action} (h : .unsubscribe ∉ done) (tag : Tag) :
    done.flatMap (Action.moves tag) = (done.filterMap Action.payload?).map (.publish tag) := by
  induction done with
  | nil => rfl
  | cons a done ih =>
      have hrest : .unsubscribe ∉ done := fun hmem => h (List.mem_cons_of_mem a hmem)
      rw [List.flatMap_cons, ih hrest]
      cases a with
      | unsubscribe => exact absurd List.mem_cons_self h
      | identify | publish | reply | deliver | close => rfl

/-!
# Scripts of frames
-/

theorem script_of_data (peer : Option PeerId) (hdata : e.admitted? peer = none) :
    ∃ learned : List Action, (∀ a ∈ learned, a.required? = none ∧ a.payload? = none) ∧
      e.script peer =
        learned ++ (e.answer?.toList.map .reply ++ e.published?.toList.map .publish) := by
  refine ⟨(if peer = none then e.revealed? else none).toList.map .identify, ?_, ?_⟩
  · intro a ha
    obtain ⟨learned, -, rfl⟩ := List.mem_map.mp ha
    exact ⟨rfl, rfl⟩
  · unfold Event.script
    rw [hdata, Option.toList_none, List.map_nil, List.append_nil]

theorem failure?_script (hdata : e.admitted? peer = none) (socket : Socket) :
    failure? socket (e.script peer) = lostPong? socket e := by
  obtain ⟨learned, hlearned, hscript⟩ := script_of_data peer hdata
  have hpublished : failure? socket (e.published?.toList.map .publish) = none := by
    apply failure?_of_required?_eq_none
    intro a ha
    obtain ⟨p, -, rfl⟩ := List.mem_map.mp ha
    rfl
  rw [hscript, failure?_append, failure?_append, hpublished,
    failure?_of_required?_eq_none fun a ha => (hlearned a ha).left, Option.none_or, Option.or_none,
    lostPong?]
  cases e.answer? with
  | none => rfl
  | some pong => exact (failure?_cons socket _ []).trans Option.or_none

theorem payload?_carriedOut_of_lost (hdata : e.admitted? peer = none)
    (hlost : (lostPong? socket e).isSome) :
    (carriedOut socket (e.script peer)).filterMap Action.payload? = [] := by
  obtain ⟨learned, hlearned, hscript⟩ := script_of_data peer hdata
  unfold lostPong? at hlost
  cases hanswer : e.answer? with
  | none =>
      rw [hanswer] at hlost
      cases hlost
  | some pong =>
      rw [hanswer] at hlost
      have hbefore := failure?_of_required?_eq_none (fun a ha => (hlearned a ha).left) socket
      rw [hscript, hanswer]
      show (carriedOut socket (learned ++ .reply pong :: _)).filterMap Action.payload? = []
      rw [carriedOut_append_cons (a := .reply pong) hbefore hlost]
      exact List.filterMap_eq_nil_iff.mpr fun a ha => (hlearned a ha).right

theorem ping_of_lost (hlost : (lostPong? socket e).isSome) :
    ∃ bytes, e = .binary bytes ∧ 24 ≤ bytes.length ∧
      e.published? = some (.binary (bytes.take 16)) := by
  cases e with
  | binary bytes =>
      by_cases hping : 24 ≤ bytes.length
      · refine ⟨bytes, rfl, hping, ?_⟩
        rw [Event.published?, if_neg (by omega), if_neg (by omega)]
      · rw [lostPong?, Event.answer?, if_neg hping] at hlost
        cases hlost
  | text | opened | heard | failed | ended => cases hlost

/-!
# What is done for a frame
-/

theorem take_of_works (hx : x.session = ⟨.live peer, some tag⟩) (hending : e.isEnding = false)
    (hdata : e.admitted? peer = none) (hworks : lostPong? socket e = none) :
    (x.take socket e).house.groups =
        (x.house.groups.run (e.published?.toList.map (.publish tag))).2 ∧
      (x.take socket e).house.meters.relayed =
        x.house.meters.relayed + e.published?.toList.length := by
  have hnone := failure?_script hdata socket
  rw [hworks] at hnone
  obtain ⟨y, hy, hdid, -⟩ := react_of_not_ending hx hending socket
  rw [carriedOut_of_works hnone] at hdid
  rw [take, hy, hnone, ← Event.payload?_script peer e,
    ← flatMap_moves (Event.unsubscribe_notMem_script peer e)]
  exact ⟨hdid.groups, hdid.relayed⟩

theorem take_of_lost (hx : x.session = ⟨.live peer, some tag⟩) (hending : e.isEnding = false)
    (hdata : e.admitted? peer = none) (hlost : (lostPong? socket e).isSome) :
    (x.take socket e).house.groups = x.house.groups.leave tag ∧
      (x.take socket e).house.meters.relayed = x.house.meters.relayed := by
  obtain ⟨reason, hreason⟩ := Option.isSome_iff_exists.mp hlost
  have hsome := failure?_script hdata socket
  rw [hreason] at hsome
  obtain ⟨y, hy, hdid, hsession⟩ := react_of_not_ending hx hending socket
  obtain ⟨z, hz, hdid', -⟩ := react_of_ending hsession (e := .failed reason) rfl socket
  have hnothing := payload?_carriedOut_of_lost hdata hlost
  have hstays : .unsubscribe ∉ carriedOut socket (e.script peer) := fun hmem =>
    Event.unsubscribe_notMem_script peer e ((List.takeWhile_prefix _).subset hmem)
  have hgroups := hdid.groups
  rw [flatMap_moves hstays, hnothing] at hgroups
  have hrelayed := hdid.relayed
  rw [hnothing] at hrelayed
  rw [take, hy, hsome]
  show (y.react socket (.failed reason)).1.house.groups = _ ∧
    (y.react socket (.failed reason)).1.house.meters.relayed = _
  rw [hz]
  refine ⟨hdid'.groups.trans ?_, hdid'.relayed.trans hrelayed⟩
  rw [hgroups]
  rfl

theorem advance_of_data (hx : x.session = ⟨.live peer, some tag⟩) {frame : Incoming}
    (hdata : frame.payload?.isSome) (he : event? frame = some e)
    (hsize : frame.isOversized limit = false) (socket : Socket) :
    e.isEnding = false ∧ e.admitted? peer = none ∧
      advance limit socket x (.read frame) = x.take socket e := by
  have hopen : x.session.connection.isClosed = false := by
    rw [hx]
    rfl
  have hheeded : heeded? limit (.read frame) = some e := by
    rw [heeded?, Incoming.isTooLong_eq, hsize]
    exact he
  have htake : advance limit socket x (.read frame) = x.take socket e :=
    advance_of_heeded hopen hheeded
  cases frame with
  | text | binary =>
      cases he
      exact ⟨rfl, rfl, htake⟩
  | ping | pong => cases he
  | ended | failed => cases hdata

/-- An open session publishes all that its connection asks for when it reads a frame of data within
the limit, and then every other member of its group has it as the last before it, exactly if there
is no pong that cannot be written. If there is one, it is the head of that ping that is to be
published: the session leaves its group instead, and what others have before them stays as it is. -/
theorem published_unless_pong_lost {capacity : Nat} {ms : List Groups.Move} {g : GroupName}
    (hreached : x.house.groups = ((Groups.ofCapacity capacity).run ms).2)
    (hx : x.session = ⟨.live peer, some tag⟩) (hg : x.house.groups.seat? tag = some g)
    {frame : Incoming} (hdata : frame.payload?.isSome) (he : event? frame = some e)
    (hsize : frame.isOversized limit = false) (socket : Socket) :
    let asked := (x.session.connection.step e).2.filterMap Action.payload?
    let y := advance limit socket x (.read frame)
    (lostPong? socket e = none ↔
      y.house.groups = (x.house.groups.run (asked.map (.publish tag))).2 ∧
        y.house.meters.relayed = x.house.meters.relayed + asked.length) ∧
    (lostPong? socket e = none → ∀ p ∈ asked, ∀ t, x.house.groups.seat? t = some g → t ≠ tag →
      ∃ before, y.house.groups.pending t = before ++ [p]) ∧
    ((lostPong? socket e).isSome →
      (∃ bytes, e = .binary bytes ∧ 24 ≤ bytes.length ∧ asked = [.binary (bytes.take 16)]) ∧
        y.house.groups = x.house.groups.leave tag ∧
        y.house.meters.relayed = x.house.meters.relayed ∧
        ∀ t, t ≠ tag → y.house.groups.pending t = x.house.groups.pending t) := by
  intro asked y
  obtain ⟨hending, hadmitted, htake⟩ := advance_of_data hx hdata he hsize socket
  change y = x.take socket e at htake
  have hsound : x.house.groups.IsSound := by
    rw [hreached]
    exact (Groups.isSound_ofCapacity capacity).run ms
  have hroom : 0 < x.house.groups.room := by
    rw [hreached, Groups.room_run]
    exact Channel.room_pos capacity
  have hasked : asked = e.published?.toList := by
    show (x.session.connection.step e).2.filterMap Action.payload? = _
    rw [hx, Connection.step_live_eq peer hending, Event.payload?_script]
  have hworks : lostPong? socket e = none →
      y.house.groups = (x.house.groups.run (asked.map (.publish tag))).2 ∧
        y.house.meters.relayed = x.house.meters.relayed + asked.length := by
    intro hnone
    rw [hasked, htake]
    exact take_of_works hx hending hadmitted hnone
  have hfails : (lostPong? socket e).isSome →
      (∃ bytes, e = .binary bytes ∧ 24 ≤ bytes.length ∧ asked = [.binary (bytes.take 16)]) ∧
        y.house.groups = x.house.groups.leave tag ∧
        y.house.meters.relayed = x.house.meters.relayed := by
    intro hlost
    obtain ⟨bytes, hbytes, hlength, hhead⟩ := ping_of_lost hlost
    rw [hasked, hhead, htake]
    exact ⟨⟨bytes, hbytes, hlength, rfl⟩, take_of_lost hx hending hadmitted hlost⟩
  refine ⟨⟨hworks, ?exact⟩, ?reach, ?lost⟩
  case exact =>
    rintro ⟨-, hcounted⟩
    by_contra hne
    obtain ⟨⟨_, -, -, hone⟩, -, hrelayed⟩ := hfails (Option.isSome_iff_ne_none.mpr hne)
    rw [hrelayed, hone, List.length_singleton] at hcounted
    omega
  case reach =>
    intro hnone p hp t hg' hne
    have hone : asked = [p] := by
      rw [hasked] at hp ⊢
      rw [Option.mem_toList.mp hp]
      rfl
    rw [(hworks hnone).left, hone]
    exact Groups.exists_pending_publish hsound hroom hg hg' hne p
  case lost =>
    intro hlost
    obtain ⟨hping, hgroups, hrelayed⟩ := hfails hlost
    refine ⟨hping, hgroups, hrelayed, fun t hne => ?_⟩
    exact ((Groups.leaving hsound (Or.inr hgroups)).right.right.right t hne).right

/-- With a socket that is broken a text is published all the same, and the head of a ping is not. -/
theorem published_unless_pong_lost_of_two :
    let breaks : Socket := fun _ => some "broken pipe"
    let one : GroupName := ⟨"one"⟩
    let gs := ((Groups.ofCapacity 4).run [.join one, .join one]).2
    let x : Standing := ⟨⟨gs, {}⟩, ⟨.live none, some ⟨0⟩⟩, []⟩
    let ping := Incoming.binary (List.replicate 24 7)
    (∃ before, (advance 100 breaks x (.read (.text "hello"))).house.groups.pending ⟨1⟩ =
        before ++ [.text "hello"]) ∧
      (advance 100 breaks x (.read ping)).house.groups.pending ⟨1⟩ = gs.pending ⟨1⟩ ∧
      (advance 100 breaks x (.read ping)).house.groups = gs.leave ⟨0⟩ := by
  intro breaks one gs x ping
  have hseat : gs.seat? ⟨0⟩ = some one := by decide +kernel
  have hother : gs.seat? ⟨1⟩ = some one := by decide +kernel
  have htext : (Incoming.text "hello").isOversized 100 = false := by decide
  have hping : ping.isOversized 100 = false := by decide
  have hasked : Payload.text "hello" ∈
      ((Connection.live none).step (.text "hello")).2.filterMap Action.payload? := by
    decide +kernel
  obtain ⟨-, hreach, -⟩ := published_unless_pong_lost (x := x) rfl rfl hseat rfl rfl htext breaks
  obtain ⟨-, -, hlost⟩ := published_unless_pong_lost (x := x) rfl rfl hseat rfl rfl hping breaks
  obtain ⟨-, hgroups, -, hpending⟩ := hlost rfl
  exact ⟨hreach rfl _ hasked ⟨1⟩ hother (by decide), hpending ⟨1⟩ (by decide), hgroups⟩

/-- The other session of the group does not get the head of a ping whose pong cannot be written,
though it is to be published. -/
theorem head_lost_with_pong :
    let works : Socket := fun _ => none
    let breaks : Socket := fun _ => some "broken pipe"
    let one : GroupName := ⟨"one"⟩
    let bytes := List.replicate 24 (7 : UInt8)
    let h := ((Hub.ofLimits 4 100).run [(works, .connect one none), (works, .connect one none)]).2
    h.session? 0 = some ⟨.live none, some ⟨0⟩⟩ ∧ h.session? 1 = some ⟨.live none, some ⟨1⟩⟩ ∧
      ((Connection.live none).step (.binary bytes)).2.filterMap Action.payload? =
        [.binary (bytes.take 16)] ∧
      (h.read works 0 (.binary bytes)).2.house.groups.pending ⟨1⟩ = [.binary (bytes.take 16)] ∧
      (h.read breaks 0 (.binary bytes)).2.house.groups.pending ⟨1⟩ = [] := by
  decide +kernel

end Session
end Relay
end Parley
