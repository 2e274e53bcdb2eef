import Parley.Proofs.Relay.Window
import Mathlib.Data.List.Infix

/-!
# The first identity that is revealed

Hints, senders and the heads of binary frames may reveal who a peer is. The history
of an open connection tells its peer: the first identity revealed since it opened.
Each event is followed up from the history before it and with it.
-/

namespace Parley

theorem BinaryFrame.peer?_ofBytes (bytes : List UInt8) :
    (ofBytes bytes).peer? = PeerId.ofBytes? bytes := by
  unfold ofBytes
  cases PeerId.ofBytes? bytes with
  | none => rfl
  | some peer =>
      dsimp only
      split
      · rfl
      · split <;> rfl

namespace Relay

def Action.identity? : Action → Option PeerId
  | .identify peer => some peer
  | _ => none

theorem Action.mem_identities {actions : List Action} {p : PeerId} :
    p ∈ actions.filterMap identity? ↔ .identify p ∈ actions := by
  constructor
  · intro h
    rcases List.mem_filterMap.mp h with ⟨a, ha, hp⟩
    cases a with
    | identify peer =>
        cases hp
        exact ha
    | publish | reply | deliver | close | unsubscribe => cases hp
  · intro h
    exact List.mem_filterMap.mpr ⟨.identify p, h, rfl⟩

namespace Event

/-- The identity that a frame reveals: the nonempty string that the sender of a JSON object is, or
what the first bytes of a binary frame are as a UUID. -/
def revealed? : Event → Option PeerId
  | .text s =>
    match Json.parse? s with
    | some (.object members) =>
      match (Json.Value.object members).member? "sender" with
      | some (.string sender) => if sender = "" then none else some ⟨sender⟩
      | _ => none
    | _ => none
  | .binary bytes =>
    if bytes.length < 16 then none else some ⟨String.ofList (PeerId.hyphenated (bytes.take 16))⟩
  | _ => none

theorem sender?_ofText (s : String) :
    (TextFrame.ofText s).sender?.map PeerId.mk = revealed? (.text s) := by
  unfold TextFrame.ofText revealed?
  dsimp only
  cases Json.parse? s with
  | none => rfl
  | some v =>
      cases v with
      | object members =>
          show (Routing.field? "sender" (.object members)).map PeerId.mk = _
          unfold Routing.field?
          dsimp only
          cases (Json.Value.object members).member? "sender" with
          | none => rfl
          | some v =>
              cases v with
              | string sender =>
                  by_cases hempty : sender = "" <;> simp [Json.Value.string?, hempty]
              | null | bool | number | array | object => rfl
      | null | bool | number | array | string => rfl

end Event

/-- The identities that were revealed while the connection was open, in their order. -/
def revelations (es : List Event) : List PeerId :=
  match Event.window? es with
  | none => []
  | some (hint, frames) => hint.toList ++ frames.filterMap Event.revealed?

theorem revelations_of_window? {es frames : List Event} {hint : Option PeerId}
    (h : Event.window? es = some (hint, frames)) :
    revelations es = hint.toList ++ frames.filterMap Event.revealed? := by
  unfold revelations
  rw [h]

theorem revelations_of_none {es : List Event} (h : Event.window? es = none) :
    revelations es = [] := by
  unfold revelations
  rw [h]

namespace Connection

/-- What a history tells of the connection, and of the time for which it will be open. -/
inductive Tells (es : List Event) : Connection → Prop where
  | connecting (h : ∀ later, Event.window? (es ++ later) = Event.window? later) :
      Tells es .connecting
  | live (hint : Option PeerId) (frames : List Event)
      (h : ∀ later, Event.window? (es ++ later) =
        some (hint, frames ++ later.takeWhile fun e => !e.isEnding)) :
      Tells es (.live (hint.toList ++ frames.filterMap Event.revealed?).head?)
  | closed (h : ∀ later, Event.window? (es ++ later) = Event.window? es) : Tells es .closed

theorem learn_eq (known candidate : Option PeerId) :
    learn known candidate =
      (known.or candidate, (if known = none then candidate else none).toList.map .identify) := by
  rcases known with _ | me <;> rcases candidate with _ | other <;> rfl

theorem head?_append_toList (known : List PeerId) (candidate : Option PeerId) :
    (known ++ candidate.toList).head? = known.head?.or candidate := by
  rw [List.head?_append]
  cases candidate <;> rfl

theorem step_live_of_not_isEnding (peer : Option PeerId) {e : Event} (h : e.isEnding = false) :
    ((Connection.live peer).step e).1 = .live (peer.or e.revealed?) ∧
      ∃ rest, ((Connection.live peer).step e).2 =
        (if peer = none then e.revealed? else none).toList.map .identify ++ rest ∧
        rest.filterMap Action.identity? = [] := by
  cases e with
  | opened hint => cases peer <;> exact ⟨rfl, [], rfl, rfl⟩
  | text s =>
      have hstep : (Connection.live peer).step (.text s) =
          (.live (learn peer (Event.text s).revealed?).1,
            (learn peer (Event.text s).revealed?).2 ++ [.publish (.text s)]) := by
        rw [← Event.sender?_ofText]
        rfl
      rw [hstep, learn_eq]
      exact ⟨rfl, [.publish (.text s)], rfl, rfl⟩
  | binary bytes =>
      have hstep : (Connection.live peer).step (.binary bytes) =
          (.live (learn peer (Event.binary bytes).revealed?).1,
            (learn peer (Event.binary bytes).revealed?).2 ++ binaryActions bytes) := by
        show (Connection.live (learn peer (BinaryFrame.ofBytes bytes).peer?).1, _) = _
        rw [BinaryFrame.peer?_ofBytes]
        rfl
      rw [hstep, learn_eq]
      refine ⟨rfl, binaryActions bytes, rfl, ?_⟩
      unfold binaryActions
      split <;> rfl
  | heard p =>
      have hrest : (if shouldDeliver peer p then [Action.deliver p] else []).filterMap
          Action.identity? = [] := by
        split <;> rfl
      cases peer <;> exact ⟨rfl, _, rfl, hrest⟩
  | failed reason => cases h
  | ended => cases h

theorem step_of_isEnding (c : Connection) {e : Event} (h : e.isEnding = true) :
    (c.step e).1 = .closed ∧ (c.step e).2.filterMap Action.identity? = [] := by
  cases e with
  | failed reason => cases c <;> exact ⟨rfl, rfl⟩
  | ended => cases c <;> exact ⟨rfl, rfl⟩
  | opened | text | binary | heard => cases h

theorem filterMap_revealed?_concat (frames : List Event) (e : Event) :
    (frames ++ [e]).filterMap Event.revealed? =
      frames.filterMap Event.revealed? ++ e.revealed?.toList := by
  rw [List.filterMap_append]
  cases hrevealed : e.revealed? <;> simp [hrevealed]

variable {es : List Event} {c : Connection}

theorem Tells.step (h : Tells es c) (e : Event) : Tells (es ++ [e]) (c.step e).1 := by
  have hassoc : ∀ later, es ++ [e] ++ later = es ++ e :: later := by
    intro later
    rw [List.append_assoc]
    rfl
  cases h with
  | connecting h =>
      cases hending : e.isEnding with
      | true =>
          rw [(step_of_isEnding .connecting hending).left]
          apply Tells.closed
          intro later
          rw [hassoc, h, h, Event.window?_of_isEnding hending, Event.window?_of_isEnding hending]
      | false =>
          cases e with
          | opened hint =>
              have hlive : Tells (es ++ [.opened hint])
                  (.live (hint.toList ++ [].filterMap Event.revealed?).head?) := by
                apply Tells.live hint []
                intro later
                rw [hassoc, h]
                rfl
              have hpeer : (hint.toList ++ [].filterMap Event.revealed?).head? = hint := by
                cases hint <;> rfl
              rw [hpeer] at hlive
              show Tells _ (.live (learn none hint).1)
              rw [learn_eq]
              exact hlive
          | text | binary | heard =>
              apply Tells.connecting
              intro later
              rw [hassoc, h]
              rfl
          | failed | ended => cases hending
  | live hint frames h =>
      cases hending : e.isEnding with
      | true =>
          rw [(step_of_isEnding _ hending).left]
          apply Tells.closed
          intro later
          rw [hassoc, h, h, Event.takeWhile_of_isEnding hending,
            Event.takeWhile_of_isEnding hending]
      | false =>
          rw [(step_live_of_not_isEnding _ hending).left, ← head?_append_toList, List.append_assoc,
            ← filterMap_revealed?_concat]
          apply Tells.live hint (frames ++ [e])
          intro later
          rw [hassoc, h, Event.takeWhile_of_not_isEnding hending, List.append_assoc]
          rfl
  | closed h =>
      apply Tells.closed
      intro later
      rw [hassoc, h, h]

theorem tells_after (es : List Event) : Tells es (connecting.after es) := by
  induction es using List.reverseRecOn with
  | nil => exact .connecting fun _ => rfl
  | append_singleton es e ih =>
      rw [after_concat]
      exact ih.step e

theorem Tells.peer_eq {peer : Option PeerId} (h : Tells es (.live peer)) :
    peer = (revelations es).head? := by
  generalize hc : Connection.live peer = c at h
  cases h with
  | live hint frames h =>
      cases hc
      have hnow := h []
      rw [List.append_nil, List.takeWhile_nil, List.append_nil] at hnow
      rw [revelations_of_window? hnow]
  | connecting | closed => cases hc

theorem Tells.revelations_concat (h : Tells es c) (e : Event) :
    ∃ more : Option PeerId, revelations (es ++ [e]) = revelations es ++ more.toList ∧
      ∃ rest, (c.step e).2 =
        (if revelations es = [] then more else none).toList.map .identify ++ rest ∧
        rest.filterMap Action.identity? = [] := by
  cases h with
  | connecting h =>
      have hbefore : revelations es = [] := by
        apply revelations_of_none
        have hnow := h []
        rw [List.append_nil] at hnow
        exact hnow
      rw [hbefore]
      cases e with
      | opened hint =>
          refine ⟨hint, ?_, [], ?_, rfl⟩
          · rw [revelations_of_window? (h [.opened hint]), List.takeWhile_nil, List.filterMap_nil,
              List.append_nil, List.nil_append]
          · show (learn none hint).2 = _
            rw [learn_eq, List.append_nil]
            rfl
      | text | binary | heard | failed | ended =>
          refine ⟨none, ?_, _, rfl, rfl⟩
          exact revelations_of_none (h _)
  | live hint frames h =>
      have hbefore : revelations es = hint.toList ++ frames.filterMap Event.revealed? := by
        apply revelations_of_window?
        simpa using h []
      cases hending : e.isEnding with
      | true =>
          refine ⟨none, ?_, _, ?_,
            (step_of_isEnding (.live (hint.toList ++ frames.filterMap Event.revealed?).head?)
              hending).right⟩
          · rw [hbefore, revelations_of_window? (h [e]), Event.takeWhile_of_isEnding hending,
              List.append_nil, Option.toList_none, List.append_nil]
          · rw [ite_self]
            rfl
      | false =>
          rcases (step_live_of_not_isEnding (revelations es).head? hending).right
            with ⟨rest, hactions, hrest⟩
          refine ⟨e.revealed?, ?_, rest, ?_, hrest⟩
          · rw [hbefore, revelations_of_window? (h [e]),
              Event.takeWhile_of_not_isEnding hending, List.takeWhile_nil,
              filterMap_revealed?_concat, List.append_assoc]
          · rw [← hbefore, hactions]
            simp only [List.head?_eq_none_iff]
  | closed h =>
      refine ⟨none, ?_, [], ?_, rfl⟩
      · have hsame : revelations (es ++ [e]) = revelations es := by
          unfold revelations
          rw [h]
        rw [hsame, Option.toList_none, List.append_nil]
      · rw [ite_self, Option.toList_none, List.map_nil, List.append_nil]
        cases e <;> rfl

theorem revelations_mono (es later : List Event) :
    revelations es <+: revelations (es ++ later) := by
  induction later using List.reverseRecOn with
  | nil =>
      rw [List.append_nil]
  | append_singleton later e ih =>
      rcases (tells_after (es ++ later)).revelations_concat e with ⟨more, hmore, _⟩
      rw [← List.append_assoc, hmore]
      exact ih.trans (List.prefix_append _ _)

theorem head?_of_start {ps qs : List PeerId} (h : ps <+: qs) {p : PeerId}
    (hp : ps.head? = some p) : qs.head? = some p := by
  rcases h with ⟨more, rfl⟩
  rw [List.head?_append, hp]
  rfl

/-- The actions of one step begin with the identity that it is the first to reveal, if it is. -/
theorem Tells.actions_eq (h : Tells es c) (e : Event) :
    ∃ rest, (c.step e).2 =
      (if revelations es = [] then (revelations (es ++ [e])).head? else none).toList.map .identify
        ++ rest ∧ rest.filterMap Action.identity? = [] := by
  rcases h.revelations_concat e with ⟨more, hmore, rest, hactions, hrest⟩
  refine ⟨rest, ?_, hrest⟩
  rw [hactions, hmore]
  by_cases hnone : revelations es = []
  · rw [if_pos hnone, if_pos hnone, hnone, List.nil_append]
    cases more <;> rfl
  · rw [if_neg hnone, if_neg hnone]

theorem identities_trace (es : List Event) :
    ((connecting.trace es).flatMap Prod.snd).filterMap Action.identity? =
      (revelations es).head?.toList := by
  induction es using List.reverseRecOn with
  | nil => rfl
  | append_singleton es e ih =>
      rcases (tells_after es).actions_eq e with ⟨rest, hactions, hrest⟩
      rw [trace_concat, List.flatMap_append, List.filterMap_append, ih, List.flatMap_singleton,
        hactions, List.filterMap_append, hrest, List.append_nil]
      cases hfirst : (revelations es).head? with
      | none =>
          rw [if_pos (List.head?_eq_none_iff.mp hfirst)]
          cases (revelations (es ++ [e])).head? <;> rfl
      | some p =>
          rw [head?_of_start (revelations_mono es [e]) hfirst, if_neg]
          · rfl
          · intro hnil
            rw [hnil] at hfirst
            cases hfirst

/-!
# Runs
-/

variable {k : Nat} {state : Connection} {actions : List Action}

theorem of_getElem?_trace (hk : (connecting.trace es)[k]? = some (state, actions)) :
    ∃ e, es.take (k + 1) = es.take k ++ [e] ∧
      (connecting.after (es.take k)).step e = (state, actions) := by
  rw [getElem?_trace] at hk
  rcases Option.map_eq_some_iff.mp hk with ⟨e, he, hstep⟩
  exact ⟨e, take_succ_of_getElem? he, hstep⟩

theorem peer_of_trace {peer : Option PeerId}
    (hk : (connecting.trace es)[k]? = some (.live peer, actions)) :
    peer = (revelations (es.take (k + 1))).head? := by
  rcases of_getElem?_trace hk with ⟨e, htake, hstep⟩
  have htells := (tells_after (es.take k)).step e
  rw [hstep, ← htake] at htells
  exact htells.peer_eq

theorem actions_of_trace (hk : (connecting.trace es)[k]? = some (state, actions)) :
    ∃ rest, actions =
      (if revelations (es.take k) = [] then (revelations (es.take (k + 1))).head?
        else none).toList.map .identify ++ rest ∧ ∀ p, .identify p ∉ rest := by
  rcases of_getElem?_trace hk with ⟨e, htake, hstep⟩
  rcases (tells_after (es.take k)).actions_eq e with ⟨rest, hactions, hrest⟩
  rw [hstep, ← htake] at hactions
  refine ⟨rest, hactions, ?_⟩
  intro p hp
  have hmem := Action.mem_identities.mpr hp
  rw [hrest] at hmem
  cases hmem

theorem identify_mem_iff_of_trace (hk : (connecting.trace es)[k]? = some (state, actions))
    (p : PeerId) :
    .identify p ∈ actions ↔
      revelations (es.take k) = [] ∧ (revelations (es.take (k + 1))).head? = some p := by
  rcases actions_of_trace hk with ⟨rest, rfl, hnone⟩
  rw [List.mem_append, or_iff_left (hnone p)]
  split
  · rename_i hnew
    cases (revelations (es.take (k + 1))).head? with
    | none => simp
    | some first => simp [hnew, eq_comm]
  · rename_i hknown
    simp [hknown]

theorem identify_first_of_trace (hk : (connecting.trace es)[k]? = some (state, actions))
    {p : PeerId} (hp : .identify p ∈ actions) :
    ∃ rest, actions = .identify p :: rest ∧ ∀ q, .identify q ∉ rest := by
  rcases (identify_mem_iff_of_trace hk p).mp hp with ⟨hnew, hfirst⟩
  rcases actions_of_trace hk with ⟨rest, hactions, hnone⟩
  rw [if_pos hnew, hfirst] at hactions
  exact ⟨rest, hactions, hnone⟩

theorem peer_stays_of_trace {j : Nat} {p : PeerId} {peer : Option PeerId} {actions' : List Action}
    (hjk : j ≤ k) (hj : (connecting.trace es)[j]? = some (.live (some p), actions))
    (hk : (connecting.trace es)[k]? = some (.live peer, actions')) : peer = some p := by
  have hsplit : es.take (k + 1) = es.take (j + 1) ++ (es.drop (j + 1)).take (k - j) := by
    rw [← List.take_add]
    congr 1
    omega
  have hmono : revelations (es.take (j + 1)) <+: revelations (es.take (k + 1)) := by
    rw [hsplit]
    exact revelations_mono _ _
  rw [peer_of_trace hk]
  exact head?_of_start hmono (peer_of_trace hj).symm

/-- In every run, an open connection has the first identity revealed since it opened for its peer.
It is told to whoever carries out the actions in the step that revealed it, before anything else,
and no other step tells any; once known, it stays. -/
theorem first_revelation_wins (es : List Event) :
    (∀ (k : Nat) state actions, (connecting.trace es)[k]? = some (state, actions) →
      (∀ peer, state = .live peer → peer = (revelations (es.take (k + 1))).head?) ∧
      (∀ p, .identify p ∈ actions ↔
        revelations (es.take k) = [] ∧ (revelations (es.take (k + 1))).head? = some p) ∧
      (∀ p, .identify p ∈ actions →
        ∃ rest, actions = .identify p :: rest ∧ ∀ q, .identify q ∉ rest)) ∧
    ((connecting.trace es).flatMap Prod.snd).filterMap Action.identity? =
      (revelations es).head?.toList ∧
    (∀ (j k : Nat) p peer actions actions', j ≤ k →
      (connecting.trace es)[j]? = some (.live (some p), actions) →
      (connecting.trace es)[k]? = some (.live peer, actions') → peer = some p) := by
  refine ⟨?_, identities_trace es, fun _ _ _ _ _ _ => peer_stays_of_trace⟩
  intro k state actions hk
  refine ⟨?_, identify_mem_iff_of_trace hk, fun _ => identify_first_of_trace hk⟩
  rintro peer rfl
  exact peer_of_trace hk

/-- A frame before opening and the hint of a second opening count for nothing; a truncated ping
counts. -/
theorem first_revelation_wins_of_second_opening :
    let es : List Event :=
      [.binary (List.replicate 16 1), .opened none, .text "hello", .binary [2, 2],
        .binary (List.replicate 20 3), .opened (some ⟨"me"⟩), .binary (List.replicate 16 4)]
    ((connecting.trace es).flatMap Prod.snd).filterMap Action.identity? =
        [⟨"03030303-0303-0303-0303-030303030303"⟩] ∧
      (∀ peer actions, (connecting.trace es)[6]? = some (.live peer, actions) →
        peer = some ⟨"03030303-0303-0303-0303-030303030303"⟩) := by
  intro es
  have hfirst : (revelations es).head? = some ⟨"03030303-0303-0303-0303-030303030303"⟩ := by
    decide +kernel
  rcases first_revelation_wins es with ⟨hsteps, hidentities, _⟩
  constructor
  · rw [hidentities, hfirst]
    rfl
  · intro peer actions hlast
    rw [(hsteps 6 _ _ hlast).left peer rfl]
    exact hfirst

end Connection
end Relay
end Parley
