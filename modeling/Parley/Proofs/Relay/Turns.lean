import Parley.Proofs.Relay.Chronicle
import Parley.Proofs.Relay.Pending

/-!
# Turns

What a turn does to the sessions, to their groups and to the record, in few cases.
Sessions hold their seats as long as they are open: every turn keeps it so.
-/

namespace Parley
namespace Relay

/-!
# Moves of the hub
-/

namespace Hub

variable {h : Hub} {socket : Socket} {i : Nat} {peer : Option PeerId} {tag : Tag}

theorem connect_eq (h : Hub) (socket : Socket) (g : GroupName) (hint : Option PeerId) :
    (h.connect socket g hint).2.2.sessions =
        h.sessions ++ [⟨.live hint, some (h.groups.join g).1⟩] ∧
      (h.connect socket g hint).2.2.groups = (h.groups.join g).2 := by
  rcases Session.start_eq socket h.house g hint with ⟨hsession, hgroups⟩
  refine ⟨?_, hgroups⟩
  change h.sessions ++ [(Session.start socket h.house g hint).session] = _
  rw [hsession]
  rfl

theorem sessions_set_self {s : Session} (hs : h.session? i = some s) :
    h.sessions.set i s = h.sessions := by
  rcases List.getElem?_eq_some_iff.mp hs with ⟨hlt, hget⟩
  rw [← hget]
  exact List.set_getElem_self hlt

theorem read_of_none (hs : h.session? i = none) (frame : Incoming) :
    (h.read socket i frame).2 = h := by
  rw [read, advance, hs]

theorem read_of_closed (socket : Socket) (hs : h.session? i = some ⟨.closed, none⟩)
    (frame : Incoming) :
    (h.read socket i frame).2 = h ∧ h.postings i frame = [] := by
  constructor
  · rw [read, advance, hs]
    change { h with house := h.house, sessions := h.sessions.set i ⟨.closed, none⟩ } = h
    rw [sessions_set_self hs]
  · rw [postings, hs]
    dsimp only
    rw [Session.postings]
    split
    · rfl
    · split
      · rfl
      · rename_i e _
        cases e <;> rfl

theorem read_outcome (hworks : socket.Works)
    (hs : h.session? i = some ⟨.live peer, some tag⟩) (frame : Incoming) :
    ∃ s, Session.Outcome tag h.groups s (h.postings i frame) (h.read socket i frame).2.groups ∧
      (h.read socket i frame).2.sessions = h.sessions.set i s := by
  rw [read, advance, postings, hs]
  exact ⟨_, Session.outcome_read hworks h.limit frame, rfl⟩

theorem part_eq (hs : h.session? i = some ⟨.live peer, some tag⟩) {frame : Incoming} {s : Session}
    (hsessions : (h.read socket i frame).2.sessions = h.sessions.set i s) :
    h.part socket i frame =
      if s.seat.isSome then (h.read socket i frame).2
      else (h.read socket i frame).2.withGroups (h.groups.dropReceiver tag) := by
  have hlt : i < h.sessions.length := (List.getElem?_eq_some_iff.mp hs).choose
  have hafter : (h.read socket i frame).2.session? i = some s := by
    rw [session?, hsessions]
    exact List.getElem?_set_self hlt
  rw [part, hs, hafter]
  rcases s with ⟨_, _ | seat⟩ <;> rfl

theorem hear_of_no_seat (socket : Socket) (hs : (h.session? i).bind (·.seat) = none) :
    h.hear socket i = ([], h) ∧ h.reading? i = none := by
  constructor
  · rw [hear, hs]
  · rw [reading?]
    cases hsession : h.session? i with
    | none => rfl
    | some s =>
        rw [hsession, Option.bind_some] at hs
        dsimp only
        rw [hs]

theorem advance_heard (hworks : socket.Works)
    (hs : h.session? i = some ⟨.live peer, some tag⟩) (p : Payload) :
    (h.advance socket i (.heard p)).1 = (if shouldDeliver peer p then [.frame p] else []) ∧
      (h.advance socket i (.heard p)).2.sessions = h.sessions ∧
      (h.advance socket i (.heard p)).2.groups = h.groups := by
  rcases Session.advance_heard hworks h.limit h.house peer tag p with ⟨meters, hadvance⟩
  rw [advance, hs]
  dsimp only
  rw [hadvance]
  exact ⟨rfl, sessions_set_self hs, rfl⟩

theorem hear_of_live (hworks : socket.Works)
    (hs : h.session? i = some ⟨.live peer, some tag⟩) :
    (h.hear socket i).1 =
        ((h.groups.receive tag).1.toList.filter (shouldDeliver peer)).map Outgoing.frame ∧
      (h.hear socket i).2.sessions = h.sessions ∧
      (h.hear socket i).2.groups = (h.groups.receive tag).2 := by
  rw [hear, hs]
  simp only [groups, Option.bind_some]
  generalize h.house.groups.receive tag = result
  rcases result with ⟨_ | p, gs⟩
  · exact ⟨rfl, rfl, rfl⟩
  · have hs' : (h.withGroups gs).session? i = some ⟨.live peer, some tag⟩ := hs
    rcases advance_heard hworks hs' p with ⟨hwritten, hsessions, hgroups⟩
    refine ⟨?_, hsessions, hgroups⟩
    refine hwritten.trans ?_
    cases hdeliver : shouldDeliver peer p <;> simp [hdeliver]

end Hub

namespace Chronicle

variable {c : Chronicle} {socket : Socket}

/-!
# Seats
-/

inductive Seating (gs : Groups) (i : Nat) (g : GroupName) : Session → Prop where
  | live (peer : Option PeerId) (hseat : gs.seat? ⟨i⟩ = some g) :
      Seating gs i g ⟨.live peer, some ⟨i⟩⟩
  | closed (hseat : gs.seat? ⟨i⟩ = none) : Seating gs i g ⟨.closed, none⟩

structure IsSeated (c : Chronicle) : Prop where
  sound : c.hub.groups.IsSound
  joined : c.hub.groups.joined = c.hub.sessions.length
  listed : c.members.length = c.hub.sessions.length
  since : ∀ m ∈ c.members, m.since ≤ c.posts.length
  seated : ∀ i s m, c.hub.session? i = some s → c.members[i]? = some m →
    Seating c.hub.groups i m.group s

theorem isSeated_ofLimits (capacity limit : Nat) : (ofLimits capacity limit).IsSeated where
  sound := Groups.isSound_ofCapacity capacity
  joined := rfl
  listed := rfl
  since _ hm := by cases hm
  seated _ _ _ hs := by cases hs

theorem IsSeated.member (h : c.IsSeated) {i : Nat} {s : Session}
    (hs : c.hub.session? i = some s) : ∃ m, c.members[i]? = some m := by
  rcases List.getElem?_eq_some_iff.mp hs with ⟨hlt, _⟩
  rw [← h.listed] at hlt
  exact ⟨c.members[i], List.getElem?_eq_getElem hlt⟩

theorem IsSeated.seat?_eq (h : c.IsSeated) {i : Nat} {m : Membership}
    (hm : c.members[i]? = some m) (hseat : c.hub.groups.seat? ⟨i⟩ ≠ none) :
    c.hub.groups.seat? ⟨i⟩ = some m.group := by
  have hlt := (List.getElem?_eq_some_iff.mp hm).choose
  rw [h.listed] at hlt
  have hseating := h.seated i _ m (List.getElem?_eq_getElem hlt) hm
  generalize c.hub.sessions[i] = s at hseating
  cases hseating with
  | live _ hlive => exact hlive
  | closed hclosed => exact absurd hclosed hseat

theorem IsSeated.postsOf_of_none (h : c.IsSeated) {i : Nat} (hs : c.hub.session? i = none)
    (frame : Incoming) : c.postsOf i frame = [] := by
  have hlt := List.getElem?_eq_none_iff.mp hs
  rw [← h.listed] at hlt
  rw [postsOf, List.getElem?_eq_none hlt]

/-!
# What happens in a turn
-/

/-- What may happen to the sessions, to their groups, and to what is posted and read there. -/
inductive Happens (c : Chronicle) : Chronicle → Prop where
  | idle {h frames written} (hsessions : h.sessions = c.hub.sessions)
      (hgroups : h.groups = c.hub.groups) :
      Happens c { c with hub := h, frames := frames, written := written }
  | came {h frames written} (g : GroupName) (peer : Option PeerId)
      (hsessions : h.sessions = c.hub.sessions ++ [⟨.live peer, some (c.hub.groups.join g).1⟩])
      (hgroups : h.groups = (c.hub.groups.join g).2) :
      Happens c
        { c with
          hub := h
          members := c.members ++ [⟨g, c.posts.length⟩]
          frames := frames
          written := written }
  | learned {h frames written} (i : Nat) (peer peer' : Option PeerId)
      (hs : c.hub.session? i = some ⟨.live peer, some ⟨i⟩⟩)
      (hsessions : h.sessions = c.hub.sessions.set i ⟨.live peer', some ⟨i⟩⟩)
      (hgroups : h.groups = c.hub.groups) :
      Happens c { c with hub := h, frames := frames, written := written }
  | posted {h frames written} (i : Nat) (m : Membership) (peer peer' : Option PeerId) (p : Payload)
      (hs : c.hub.session? i = some ⟨.live peer, some ⟨i⟩⟩) (hm : c.members[i]? = some m)
      (hsessions : h.sessions = c.hub.sessions.set i ⟨.live peer', some ⟨i⟩⟩)
      (hgroups : h.groups = (c.hub.groups.publish ⟨i⟩ p).2) :
      Happens c
        { c with
          hub := h
          posts := c.posts ++ [⟨i, m.group, p⟩]
          frames := frames
          written := written }
  | left {h frames written} (i : Nat) (peer : Option PeerId)
      (hs : c.hub.session? i = some ⟨.live peer, some ⟨i⟩⟩)
      (hsessions : h.sessions = c.hub.sessions.set i ⟨.closed, none⟩)
      (hgroups : h.groups = c.hub.groups.dropReceiver ⟨i⟩ ∨ h.groups = c.hub.groups.leave ⟨i⟩) :
      Happens c { c with hub := h, frames := frames, written := written }
  | cleared {h frames written} (tag : Tag) (hsessions : h.sessions = c.hub.sessions)
      (hgroups : h.groups = c.hub.groups.dropMember tag) :
      Happens c { c with hub := h, frames := frames, written := written }
  | heard {h frames written} (i : Nat) (peer : Option PeerId)
      (hs : c.hub.session? i = some ⟨.live peer, some ⟨i⟩⟩)
      (hsessions : h.sessions = c.hub.sessions)
      (hgroups : h.groups = (c.hub.groups.receive ⟨i⟩).2) :
      Happens c
        { c with
          hub := h
          readings := c.readings ++
            ((c.hub.groups.receive ⟨i⟩).1.map fun p => ⟨i, peer, p⟩).toList
          frames := frames
          written := written }

theorem happens_read (h : c.IsSeated) (hworks : socket.Works) (i : Nat) (frame : Incoming)
    {after : Hub} {frames : List (Nat × Incoming)} {written : List Writing}
    (hafter : after = (c.hub.read socket i frame).2 ∨ after = c.hub.part socket i frame) :
    Happens c
      { c with
        hub := after
        posts := c.posts ++ c.postsOf i frame
        frames := frames
        written := written } := by
  cases hs : c.hub.session? i with
  | none =>
      have hsame : after = c.hub := by
        rcases hafter with rfl | rfl
        · exact Hub.read_of_none hs frame
        · rw [Hub.part, Hub.read_of_none hs frame, hs]
          rfl
      rw [h.postsOf_of_none hs, List.append_nil, hsame]
      exact .idle rfl rfl
  | some s =>
      rcases h.member hs with ⟨m, hm⟩
      cases h.seated i s m hs hm with
      | closed =>
          rcases Hub.read_of_closed socket hs frame with ⟨hread, hpostings⟩
          have hsame : after = c.hub := by
            rcases hafter with rfl | rfl
            · exact hread
            · rw [Hub.part, hread, hs]
              rfl
          rw [postsOf, hm, hpostings]
          change Happens c
            { c with hub := after, posts := c.posts ++ [], frames := frames, written := written }
          rw [List.append_nil, hsame]
          exact .idle rfl rfl
      | live peer =>
          rcases Hub.read_outcome hworks hs frame with ⟨s', houtcome, hsessions⟩
          have hpart := Hub.part_eq hs hsessions
          rw [postsOf, hm]
          change Happens c
            { c with
              hub := after
              posts := c.posts ++ (c.hub.postings i frame).map fun p => ⟨i, m.group, p⟩
              frames := frames
              written := written }
          generalize c.hub.postings i frame = ps at houtcome
          generalize hgroups : (c.hub.read socket i frame).2.groups = gs at houtcome
          cases houtcome with
          | quiet peer' =>
              have hread : after = (c.hub.read socket i frame).2 := by
                rcases hafter with rfl | rfl
                · rfl
                · exact hpart
              rw [hread, List.map_nil, List.append_nil]
              exact .learned i peer peer' hs hsessions hgroups
          | posted peer' p =>
              have hread : after = (c.hub.read socket i frame).2 := by
                rcases hafter with rfl | rfl
                · rfl
                · exact hpart
              rw [hread]
              exact .posted i m peer peer' p hs hm hsessions hgroups
          | left =>
              rw [List.map_nil, List.append_nil]
              rcases hafter with rfl | rfl
              · exact .left i peer hs hsessions (Or.inr hgroups)
              · rw [hpart]
                exact .left i peer hs hsessions (Or.inl rfl)

theorem happens_hear (h : c.IsSeated) (hworks : socket.Works) (i : Nat) :
    Happens c (c.turn socket (.go (.hear i))) := by
  have hidle : (c.hub.session? i).bind (·.seat) = none →
      Happens c (c.turn socket (.go (.hear i))) := by
    intro hseat
    rcases Hub.hear_of_no_seat socket hseat with ⟨hhear, hreading⟩
    rw [turn, hhear, hreading, Option.toList_none, List.append_nil]
    exact .idle rfl rfl
  cases hs : c.hub.session? i with
  | none => exact hidle (by rw [hs]; rfl)
  | some s =>
      rcases h.member hs with ⟨m, hm⟩
      cases h.seated i s m hs hm with
      | closed => exact hidle (by rw [hs]; rfl)
      | live peer =>
          rcases Hub.hear_of_live hworks hs with ⟨hwritten, hsessions, hgroups⟩
          rw [turn, Hub.reading?, hs]
          exact .heard i peer hs hsessions hgroups

theorem turn_happens (h : c.IsSeated) (hworks : socket.Works) (t : Turn) :
    Happens c (c.turn socket t) := by
  cases t with
  | go m =>
      cases m with
      | connect g hint =>
          rcases c.hub.connect_eq socket g hint with ⟨hsessions, hgroups⟩
          exact .came g hint hsessions hgroups
      | read i frame => exact happens_read h hworks i frame (Or.inl rfl)
      | hear i => exact happens_hear h hworks i
  | part i frame => exact happens_read h hworks i frame (Or.inr rfl)
  | clear i => exact .cleared ⟨i⟩ rfl rfl

/-!
# Sessions keep their seats
-/

theorem Seating.congr {gs gs' : Groups} {i : Nat} {g : GroupName} {s : Session}
    (h : Seating gs i g s) (hseat : gs'.seat? ⟨i⟩ = gs.seat? ⟨i⟩) : Seating gs' i g s := by
  cases h with
  | live peer hlive => exact .live peer (hseat.trans hlive)
  | closed hclosed => exact .closed (hseat.trans hclosed)

theorem Seating.seat?_of_live {gs : Groups} {i : Nat} {g : GroupName} {peer : Option PeerId}
    (h : Seating gs i g ⟨.live peer, some ⟨i⟩⟩) : gs.seat? ⟨i⟩ = some g := by
  cases h with
  | live _ hseat => exact hseat

theorem IsSeated.seated_set (h : c.IsSeated) {hub : Hub} {i : Nat} {s : Session}
    (hsessions : hub.sessions = c.hub.sessions.set i s)
    (hself : ∀ m, c.members[i]? = some m → Seating hub.groups i m.group s)
    (hothers : ∀ j, j ≠ i → hub.groups.seat? ⟨j⟩ = c.hub.groups.seat? ⟨j⟩) :
    ∀ j s' m, hub.session? j = some s' → c.members[j]? = some m →
      Seating hub.groups j m.group s' := by
  intro j s' m hs' hm
  rw [Hub.session?, hsessions, List.getElem?_set] at hs'
  split at hs'
  · rename_i hj
    subst hj
    split at hs'
    · cases hs'
      exact hself m hm
    · cases hs'
  · rename_i hj
    exact (h.seated j s' m hs' hm).congr (hothers j (Ne.symm hj))

theorem IsSeated.seated_same (h : c.IsSeated) {hub : Hub}
    (hsessions : hub.sessions = c.hub.sessions)
    (hseats : ∀ t, hub.groups.seat? t = c.hub.groups.seat? t) :
    ∀ j s m, hub.session? j = some s → c.members[j]? = some m → Seating hub.groups j m.group s := by
  intro j s m hs hm
  rw [Hub.session?, hsessions] at hs
  exact (h.seated j s m hs hm).congr (hseats ⟨j⟩)

theorem IsSeated.came (h : c.IsSeated) {hub : Hub} {frames : List (Nat × Incoming)}
    {written : List Writing} (g : GroupName) (peer : Option PeerId)
    (hsessions : hub.sessions = c.hub.sessions ++ [⟨.live peer, some (c.hub.groups.join g).1⟩])
    (hgroups : hub.groups = (c.hub.groups.join g).2) :
    { c with
      hub := hub
      members := c.members ++ [⟨g, c.posts.length⟩]
      frames := frames
      written := written : Chronicle }.IsSeated := by
  have htag : (c.hub.groups.join g).1 = ⟨c.hub.sessions.length⟩ := by
    rw [← h.joined]
    rfl
  refine ⟨?_, ?_, ?_, ?_, ?_⟩
  · rw [hgroups]
    exact h.sound.join g
  · rw [hgroups, hsessions, Groups.joined_join, h.joined, List.length_append,
      List.length_singleton]
  · rw [hsessions, List.length_append, List.length_append, h.listed, List.length_singleton,
      List.length_singleton]
  · intro m hm
    rcases List.mem_append.mp hm with hold | hnew
    · exact h.since m hold
    · have hm' : m = ⟨g, c.posts.length⟩ := List.mem_singleton.mp hnew
      subst hm'
      exact Nat.le_refl _
  · intro i s m hs hm
    rw [Hub.session?, hsessions] at hs
    change (c.members ++ [⟨g, c.posts.length⟩])[i]? = some m at hm
    rw [List.getElem?_append] at hs hm
    change Seating hub.groups i m.group s
    rw [h.listed] at hm
    split at hs
    · rename_i hlt
      rw [if_pos hlt] at hm
      apply (h.seated i s m hs hm).congr
      rw [hgroups, Groups.seat?_join h.sound, htag, if_neg]
      intro htags
      cases htags
      exact Nat.lt_irrefl _ hlt
    · rename_i hge
      rw [if_neg hge] at hm
      have hi : i = c.hub.sessions.length := by
        have hnew := (List.getElem?_eq_some_iff.mp hs).choose
        rw [List.length_singleton] at hnew
        omega
      subst hi
      rw [Nat.sub_self] at hs hm
      cases hs
      cases hm
      rw [htag]
      exact .live peer (by rw [hgroups, Groups.seat?_join h.sound, if_pos htag.symm])

theorem Happens.isSeated {c' : Chronicle} (hhappens : Happens c c') (h : c.IsSeated) :
    c'.IsSeated := by
  cases hhappens with
  | idle hsessions hgroups =>
      refine ⟨?_, ?_, ?_, h.since, ?_⟩
      · rw [hgroups]
        exact h.sound
      · rw [hgroups, hsessions]
        exact h.joined
      · rw [hsessions]
        exact h.listed
      · exact h.seated_same hsessions fun t => by rw [hgroups]
  | came g peer hsessions hgroups => exact h.came g peer hsessions hgroups
  | learned i peer peer' hs hsessions hgroups =>
      refine ⟨?_, ?_, ?_, h.since, ?_⟩
      · rw [hgroups]
        exact h.sound
      · rw [hgroups, hsessions, List.length_set]
        exact h.joined
      · rw [hsessions, List.length_set]
        exact h.listed
      · apply h.seated_set hsessions
        · intro m hm
          rw [hgroups]
          exact .live peer' (h.seated i _ m hs hm).seat?_of_live
        · intro j _
          rw [hgroups]
  | posted i m peer peer' p hs hm hsessions hgroups =>
      refine ⟨?_, ?_, ?_, ?_, ?_⟩
      · rw [hgroups]
        exact h.sound.publish ⟨i⟩ p
      · rw [hgroups, hsessions, List.length_set, Groups.joined_publish]
        exact h.joined
      · rw [hsessions, List.length_set]
        exact h.listed
      · intro m' hm'
        rw [List.length_append]
        exact Nat.le_add_right_of_le (h.since m' hm')
      · apply h.seated_set hsessions
        · intro m hm
          rw [hgroups]
          exact .live peer' ((Groups.seat?_publish _ _ _ _).trans
            (h.seated i _ m hs hm).seat?_of_live)
        · intro j _
          rw [hgroups, Groups.seat?_publish]
  | left i peer hs hsessions hgroups =>
      rcases Groups.leaving h.sound hgroups with ⟨hsound, hjoined, hself, hothers⟩
      refine ⟨hsound, ?_, ?_, h.since, ?_⟩
      · rw [hsessions, List.length_set]
        exact hjoined.trans h.joined
      · rw [hsessions, List.length_set]
        exact h.listed
      · apply h.seated_set hsessions
        · intro m hm
          exact .closed hself
        · intro j hj
          exact (hothers ⟨j⟩ fun htag => hj (congrArg Tag.number htag)).left
  | cleared tag hsessions hgroups =>
      refine ⟨?_, ?_, ?_, h.since, ?_⟩
      · rw [hgroups]
        exact h.sound.dropMember tag
      · rw [hgroups, hsessions, Groups.joined_dropMember]
        exact h.joined
      · rw [hsessions]
        exact h.listed
      · exact h.seated_same hsessions fun t => by rw [hgroups, Groups.seat?_dropMember]
  | heard i peer hs hsessions hgroups =>
      refine ⟨?_, ?_, ?_, h.since, ?_⟩
      · rw [hgroups]
        exact h.sound.receive ⟨i⟩
      · rw [hgroups, hsessions, Groups.joined_receive]
        exact h.joined
      · rw [hsessions]
        exact h.listed
      · exact h.seated_same hsessions fun t => by rw [hgroups, Groups.seat?_receive h.sound]

end Chronicle
end Relay
end Parley
