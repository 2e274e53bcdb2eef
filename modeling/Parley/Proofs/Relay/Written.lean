import Parley.Proofs.Relay.Script
import Parley.Proofs.Relay.Turns

/-!
# What is written

A session whose writes get through writes what it passes on from its group, and
besides that only answers to frames of its own: the pong of a ping, and a closing
frame when its socket fails.
-/

namespace Parley
namespace Relay

/-- What a frame is answered: the time of a ping that is not too long, or a closing frame. -/
def Incoming.answers (limit : Nat) : Incoming → List Outgoing
  | .binary bytes =>
    if bytes.length < 24 ∨ limit < bytes.length then []
    else [.frame (.text (Pong.ofTime (Event.pingTime bytes)).write)]
  | .failed _ => [.close]
  | _ => []

def Action.output? : Action → Option Outgoing
  | .reply s => some (.frame (.text s))
  | .deliver p => some (.frame p)
  | .close _ _ => some .close
  | .identify _ | .publish _ | .unsubscribe => none

theorem Event.output?_script (peer : Option PeerId) (e : Event) :
    (e.script peer).filterMap Action.output? =
      e.answer?.toList.map (fun s => .frame (.text s)) ++
        (e.admitted? peer).toList.map .frame := by
  simp only [filterMap_script, Function.comp_def, Action.output?, List.filterMap_none,
    List.nil_append, ← List.filterMap_eq_map]

/-!
# Sessions
-/

namespace Standing

variable {socket : Socket}

theorem perform_of_socket_works (h : socket.Works) (x : Standing) (a : Action) :
    ∃ y, x.perform socket a = (y, none) ∧ y.written = x.written ++ a.output?.toList := by
  cases a with
  | reply s =>
      rw [perform, write_of_works h]
      exact ⟨_, rfl, rfl⟩
  | deliver p =>
      rw [perform, write_of_works h]
      exact ⟨_, rfl, rfl⟩
  | close reason transient =>
      refine ⟨_, rfl, ?_⟩
      rw [write_of_works h]
      rfl
  | identify peer => exact ⟨x, rfl, (List.append_nil _).symm⟩
  | publish p =>
      refine ⟨_, rfl, ?_⟩
      rw [publish]
      cases x.session.seat <;> exact (List.append_nil _).symm
  | unsubscribe =>
      refine ⟨_, rfl, ?_⟩
      rw [giveUp]
      cases x.session.seat <;> exact (List.append_nil _).symm

theorem performAll_of_socket_works (h : socket.Works) (x : Standing) (actions : List Action) :
    ∃ y, x.performAll socket actions = (y, none) ∧
      y.written = x.written ++ actions.filterMap Action.output? := by
  induction actions generalizing x with
  | nil => exact ⟨x, rfl, (List.append_nil _).symm⟩
  | cons a rest ih =>
      rcases perform_of_socket_works h x a with ⟨y, hperform, hwritten⟩
      rcases ih y with ⟨z, hall, hmore⟩
      refine ⟨z, ?_, ?_⟩
      · rw [performAll, hperform]
        exact hall
      · rw [hmore, hwritten, List.append_assoc]
        cases hout : a.output? with
        | none => rw [List.filterMap_cons_none hout]; rfl
        | some out => rw [List.filterMap_cons_some hout]; rfl

theorem written_take (h : socket.Works) (x : Standing) (e : Event) :
    (x.take socket e).written =
      x.written ++ (x.session.connection.step e).2.filterMap Action.output? := by
  rcases performAll_of_socket_works h
    { x with session := { x.session with connection := (x.session.connection.step e).1 } }
    (x.session.connection.step e).2 with ⟨y, hall, hwritten⟩
  have hreact : x.react socket e = (y, none) := hall
  rw [take, hreact]
  exact hwritten

end Standing

namespace Session

open Standing

variable {socket : Socket} {house : House} {peer : Option PeerId} {tag : Tag}

theorem written_read (h : socket.Works) (limit : Nat) (frame : Incoming) :
    (advance limit socket ⟨house, ⟨.live peer, some tag⟩, []⟩ (.read frame)).written =
      frame.answers limit := by
  show Standing.written (if isTooLong limit frame = true then _ else _) = _
  cases frame with
  | text s =>
      cases hlong : isTooLong limit (.text s) with
      | true => rfl
      | false =>
          show (take socket _ (.text s)).written = _
          rw [written_take h, Connection.step_live_eq peer rfl, Event.output?_script]
          rfl
  | binary bytes =>
      cases hlong : isTooLong limit (.binary bytes) with
      | true =>
          have hlimit : limit < bytes.length := of_decide_eq_true hlong
          rw [Incoming.answers, if_pos (Or.inr hlimit)]
          rfl
      | false =>
          have hlimit : ¬ limit < bytes.length := of_decide_eq_false hlong
          show (take socket _ (.binary bytes)).written = _
          rw [written_take h, Connection.step_live_eq peer rfl, Event.output?_script,
            Incoming.answers, Event.answer?]
          by_cases hping : bytes.length < 24
          · rw [if_pos (Or.inl hping), if_neg (Nat.not_le.mpr hping)]
            rfl
          · rw [if_neg (not_or.mpr ⟨hping, hlimit⟩), if_pos (Nat.not_lt.mp hping)]
            rfl
  | ping bytes => rfl
  | pong bytes => rfl
  | ended =>
      show (take socket ⟨house, ⟨.live peer, some tag⟩, []⟩ .ended).written = _
      rw [written_take h]
      rfl
  | failed reason =>
      show (take socket ⟨house, ⟨.live peer, some tag⟩, []⟩ (.failed reason)).written = _
      rw [written_take h]
      rfl

theorem written_start (socket : Socket) (house : House) (g : GroupName) (hint : Option PeerId) :
    (start socket house g hint).written = [] := by
  cases hint <;> rfl

end Session

/-!
# The hub
-/

def passedOn (readings : List Reading) : List Outgoing :=
  (readings.filter fun r => shouldDeliver r.peer r.payload).map fun r => .frame r.payload

theorem passedOn_append (readings more : List Reading) :
    passedOn (readings ++ more) = passedOn readings ++ passedOn more := by
  rw [passedOn, List.filter_append, List.map_append]
  rfl

theorem Reading.reader_of_mem_map (i : Nat) (peer : Option PeerId) (p? : Option Payload) :
    ∀ r ∈ p?.map fun p => (⟨i, peer, p⟩ : Reading), r.reader = i := by
  intro r hr
  rcases Option.map_eq_some_iff.mp hr with ⟨p, _, rfl⟩
  rfl

namespace Hub

theorem limit_advance (h : Hub) (socket : Socket) (i : Nat) (input : Session.Input) :
    (h.advance socket i input).2.limit = h.limit := by
  rw [advance]
  split <;> rfl

theorem limit_hear (h : Hub) (socket : Socket) (i : Nat) :
    (h.hear socket i).2.limit = h.limit := by
  rw [hear]
  split
  · rfl
  · split
    · rfl
    · exact limit_advance _ socket i _

theorem limit_part (h : Hub) (socket : Socket) (i : Nat) (frame : Incoming) :
    (h.part socket i frame).limit = h.limit := by
  rw [part]
  split <;> exact limit_advance h socket i (.read frame)

theorem reader_of_reading? (h : Hub) (i : Nat) : ∀ r ∈ h.reading? i, r.reader = i := by
  intro r hr
  rw [reading?] at hr
  split at hr
  · cases hr
  · split at hr
    · cases hr
    · exact Reading.reader_of_mem_map i _ _ r hr

end Hub

namespace Chronicle

variable {c c' : Chronicle} {socket : Socket} {i : Nat}

theorem IsSeated.session_cases (h : c.IsSeated) (i : Nat) :
    c.hub.session? i = none ∨ c.hub.session? i = some ⟨.closed, none⟩ ∨
      ∃ peer, c.hub.session? i = some ⟨.live peer, some ⟨i⟩⟩ := by
  cases hs : c.hub.session? i with
  | none => exact Or.inl rfl
  | some s =>
      rcases h.member hs with ⟨m, hm⟩
      cases h.seated i s m hs hm with
      | closed => exact Or.inr (Or.inl rfl)
      | live peer => exact Or.inr (Or.inr ⟨peer, rfl⟩)

theorem IsSeated.read_fst (h : c.IsSeated) (hworks : socket.Works) (i : Nat) (frame : Incoming) :
    (c.hub.read socket i frame).1 =
      if c.hub.isOpen i then frame.answers c.hub.limit else [] := by
  rw [Hub.read, Hub.advance, Hub.isOpen]
  rcases h.session_cases i with hs | hs | ⟨peer, hs⟩
  · rw [hs]
    rfl
  · rw [hs]
    rfl
  · rw [hs]
    exact Session.written_read hworks c.hub.limit frame

theorem IsSeated.hear_fst (h : c.IsSeated) (hworks : socket.Works) (i : Nat) :
    (c.hub.hear socket i).1 = passedOn (c.hub.reading? i).toList := by
  have hidle : (c.hub.session? i).bind (·.seat) = none →
      (c.hub.hear socket i).1 = passedOn (c.hub.reading? i).toList := by
    intro hseat
    rcases Hub.hear_of_no_seat socket hseat with ⟨hhear, hreading⟩
    rw [hhear, hreading]
    rfl
  rcases h.session_cases i with hs | hs | ⟨peer, hs⟩
  · exact hidle (by rw [hs]; rfl)
  · exact hidle (by rw [hs]; rfl)
  · rw [(Hub.hear_of_live hworks hs).left, Hub.reading?, hs]
    dsimp only
    cases (c.hub.groups.receive ⟨i⟩).1 with
    | none => rfl
    | some p =>
        show ([p].filter _).map _ = (([⟨i, peer, p⟩] : List Reading).filter _).map _
        cases hdeliver : shouldDeliver peer p <;> simp [hdeliver]

/-!
# The record
-/

theorem writtenTo_append {outs : List Outgoing} {j : Nat} {on : Bool}
    (h : c'.written = c.written ++ outs.map fun out => ⟨j, on, out⟩) (i : Nat) (heard : Bool) :
    c'.writtenTo i heard = c.writtenTo i heard ++ if j = i ∧ on = heard then outs else [] := by
  rw [writtenTo, h, List.filter_append, List.map_append, writtenTo]
  congr 1
  by_cases hboth : j = i ∧ on = heard
  · rw [if_pos hboth, List.filter_eq_self.mpr, List.map_map]
    · exact List.map_id _
    · intro w hw
      rcases List.mem_map.mp hw with ⟨_, _, rfl⟩
      simpa using hboth
  · rw [if_neg hboth, List.filter_eq_nil_iff.mpr, List.map_nil]
    intro w hw
    rcases List.mem_map.mp hw with ⟨_, _, rfl⟩
    simpa using hboth

theorem framesOf_append {frame : Incoming} (h : c'.frames = c.frames ++ c.takenIn i frame)
    (j : Nat) : c'.framesOf j = c.framesOf j ++ if i = j ∧ c.hub.isOpen i then [frame] else [] := by
  rw [framesOf, h, List.filter_append, List.map_append, framesOf, takenIn]
  congr 1
  cases c.hub.isOpen i with
  | false => simp
  | true => by_cases hij : i = j <;> simp [hij]

theorem readingsOf_append {r? : Option Reading} (h : c'.readings = c.readings ++ r?.toList)
    (hreader : ∀ r ∈ r?, r.reader = i) (j : Nat) :
    c'.readingsOf j = c.readingsOf j ++ if i = j then r?.toList else [] := by
  rw [readingsOf, h, List.filter_append, readingsOf]
  congr 1
  cases r? with
  | none => exact (ite_self _).symm
  | some r =>
      have hi : r.reader = i := hreader r rfl
      by_cases hij : i = j <;> simp [hi, hij]

theorem readingsOf_append_of_ne {r? : Option Reading} {j : Nat}
    (h : c'.readings = c.readings ++ r?.toList) (hreader : ∀ r ∈ r?, r.reader = j) (hne : i ≠ j) :
    c'.readingsOf i = c.readingsOf i := by
  rw [readingsOf_append h hreader, if_neg hne.symm, List.append_nil]

/-- Everything that was written either passes on what was read in the group or answers a frame that
came in. -/
structure IsWritten (limit : Nat) (c : Chronicle) : Prop where
  limit_eq : c.hub.limit = limit
  delivered : ∀ i, c.deliveredTo i = passedOn (c.readingsOf i)
  answered : ∀ i, c.answeredTo i = (c.framesOf i).flatMap (Incoming.answers limit)

theorem IsWritten.of_same {limit : Nat} (h : c.IsWritten limit)
    (hlimit : c'.hub.limit = c.hub.limit) (hreadings : c'.readings = c.readings)
    (hframes : c'.frames = c.frames) (hwritten : c'.written = c.written) :
    c'.IsWritten limit where
  limit_eq := hlimit.trans h.limit_eq
  delivered i := by
    rw [deliveredTo, writtenTo, hwritten, readingsOf, hreadings]
    exact h.delivered i
  answered i := by
    rw [answeredTo, writtenTo, hwritten, framesOf, hframes]
    exact h.answered i

theorem IsWritten.read {limit : Nat} {i : Nat} {frame : Incoming} (h : c.IsWritten limit)
    (hseated : c.IsSeated) (hworks : socket.Works) (hlimit : c'.hub.limit = c.hub.limit)
    (hreadings : c'.readings = c.readings) (hframes : c'.frames = c.frames ++ c.takenIn i frame)
    (hwritten : c'.written = c.written ++ c.hub.writings socket (.read i frame)) :
    c'.IsWritten limit where
  limit_eq := hlimit.trans h.limit_eq
  delivered j := by
    rw [deliveredTo, writtenTo_append hwritten, if_neg (fun hboth => Bool.noConfusion hboth.right),
      List.append_nil, readingsOf, hreadings]
    exact h.delivered j
  answered j := by
    have hanswers : (c.hub.move socket (.read i frame)).2.1 =
        if c.hub.isOpen i then frame.answers limit else [] := by
      rw [← h.limit_eq]
      exact hseated.read_fst hworks i frame
    have hold : c.writtenTo j false = (c.framesOf j).flatMap (Incoming.answers limit) :=
      h.answered j
    rw [answeredTo, writtenTo_append hwritten, hanswers, hold, framesOf_append hframes,
      List.flatMap_append]
    congr 1
    by_cases hij : i = j
    · cases c.hub.isOpen i <;> simp [Hub.move, Hub.Move.isHearing, hij]
    · simp [Hub.move, hij]

theorem IsWritten.hear {limit : Nat} {i : Nat} (h : c.IsWritten limit) (hseated : c.IsSeated)
    (hworks : socket.Works) (hlimit : c'.hub.limit = c.hub.limit)
    (hreadings : c'.readings = c.readings ++ (c.hub.reading? i).toList)
    (hframes : c'.frames = c.frames)
    (hwritten : c'.written = c.written ++ c.hub.writings socket (.hear i)) :
    c'.IsWritten limit where
  limit_eq := hlimit.trans h.limit_eq
  delivered j := by
    have hpassed : (c.hub.move socket (.hear i)).2.1 = passedOn (c.hub.reading? i).toList :=
      hseated.hear_fst hworks i
    have hold : c.writtenTo j true = passedOn (c.readingsOf j) := h.delivered j
    rw [deliveredTo, writtenTo_append hwritten, hpassed, hold,
      readingsOf_append hreadings (c.hub.reader_of_reading? i), passedOn_append]
    congr 1
    by_cases hij : i = j <;> simp [Hub.move, Hub.Move.isHearing, hij, passedOn]
  answered j := by
    rw [answeredTo, writtenTo_append hwritten, if_neg (fun hboth => Bool.noConfusion hboth.right),
      List.append_nil, framesOf, hframes]
    exact h.answered j

theorem IsWritten.turn {limit : Nat} (h : c.IsWritten limit) (hseated : c.IsSeated)
    (hworks : socket.Works) (t : Turn) : (c.turn socket t).IsWritten limit := by
  cases t with
  | go m =>
      cases m with
      | connect g hint =>
          refine IsWritten.of_same (c := c) h rfl rfl rfl ?_
          show c.written ++ (Session.start socket c.hub.house g hint).written.map _ = c.written
          rw [Session.written_start]
          exact List.append_nil _
      | read i frame =>
          exact h.read hseated hworks (Hub.limit_advance _ socket i _) rfl rfl rfl
      | hear i => exact h.hear hseated hworks (Hub.limit_hear _ socket i) rfl rfl rfl
  | part i frame => exact h.read hseated hworks (Hub.limit_part _ socket i frame) rfl rfl rfl
  | clear i => exact IsWritten.of_same (c := c) h rfl rfl rfl rfl

theorem IsWritten.run {limit : Nat} {ts : List (Socket × Turn)} (h : c.IsWritten limit)
    (hseated : c.IsSeated) (hworks : ∀ t ∈ ts, t.1.Works) : (c.run ts).IsWritten limit := by
  induction ts generalizing c with
  | nil => exact h
  | cons t ts ih =>
      have ht := hworks t List.mem_cons_self
      apply ih (h.turn hseated ht t.2) ((turn_happens hseated ht t.2).isSeated hseated)
      intro t' ht'
      exact hworks t' (List.mem_cons_of_mem t ht')

theorem isWritten_ofLimits (capacity limit : Nat) : (ofLimits capacity limit).IsWritten limit where
  limit_eq := rfl
  delivered _ := rfl
  answered _ := rfl

end Chronicle
end Relay
end Parley
