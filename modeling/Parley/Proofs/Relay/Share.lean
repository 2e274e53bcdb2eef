import Mathlib.Data.List.Infix
import Parley.Proofs.Relay.Turns

/-!
# What one group has of a run

Of all turns of a run, those of the sessions of one group make up the share of that
group. In its share the sessions are numbered as if no others had ever come. What can
be seen of a group after a run is what each of its sessions was sent, where their
connections stand, and how many members it has.
-/

namespace Parley
namespace Relay

/-!
# Runs
-/

namespace Hub

def turn (h : Hub) (socket : Socket) : Turn → Nat × List Outgoing × Hub
  | .go m => h.move socket m
  | .part i frame => (i, (h.read socket i frame).1, h.part socket i frame)
  | .clear i => (i, [], h.withGroups (h.groups.dropMember ⟨i⟩))

def play (h : Hub) : List (Socket × Turn) → List (Nat × List Outgoing) × Hub
  | [] => ([], h)
  | (socket, t) :: ts =>
    let (i, written, h) := h.turn socket t
    let (more, h) := play h ts
    ((i, written) :: more, h)

theorem play_cons (h : Hub) (socket : Socket) (t : Turn) (ts : List (Socket × Turn)) :
    h.play ((socket, t) :: ts) =
      (((h.turn socket t).1, (h.turn socket t).2.1) :: ((h.turn socket t).2.2.play ts).1,
        ((h.turn socket t).2.2.play ts).2) :=
  rfl

theorem play_go (h : Hub) (ms : List (Socket × Move)) :
    h.play (ms.map fun m => (m.1, .go m.2)) = h.run ms := by
  induction ms generalizing h with
  | nil => rfl
  | cons m ms ih =>
      rw [List.map_cons, play_cons, ih]
      rfl

theorem play_part_clear {h : Hub} {socket : Socket} {i : Nat} {peer : Option PeerId}
    {frame : Incoming} (hs : h.session? i = some ⟨.live peer, some ⟨i⟩⟩)
    (hleft : ((h.read socket i frame).2.session? i).bind (·.seat) = none) (socket' : Socket) :
    (h.play [(socket, .part i frame), (socket', .clear i)]).2 = (h.read socket i frame).2 := by
  have hread : (h.read socket i frame).2.session? i =
      some (Session.advance h.limit socket ⟨h.house, ⟨.live peer, some ⟨i⟩⟩, []⟩
        (.read frame)).session := by
    unfold read advance
    rw [hs]
    exact List.getElem?_set_self (List.getElem?_eq_some_iff.mp hs).choose
  have hgroups : (h.read socket i frame).2.groups = h.groups.leave ⟨i⟩ := by
    rw [hread] at hleft
    have hleave := Session.groups_of_left h.limit frame hleft
    unfold read advance
    rw [hs]
    exact hleave
  have hpart : h.part socket i frame =
      (h.read socket i frame).2.withGroups (h.groups.dropReceiver ⟨i⟩) := by
    unfold part
    dsimp only
    rw [hs, hleft]
    rfl
  show (h.part socket i frame).withGroups ((h.part socket i frame).groups.dropMember ⟨i⟩) = _
  rw [hpart]
  show (h.read socket i frame).2.withGroups (h.groups.leave ⟨i⟩) = _
  rw [← hgroups]
  rfl

theorem play_concat (h : Hub) (ts : List (Socket × Turn)) (socket : Socket) (t : Turn) :
    h.play (ts ++ [(socket, t)]) =
      ((h.play ts).1 ++ [(((h.play ts).2.turn socket t).1, ((h.play ts).2.turn socket t).2.1)],
        ((h.play ts).2.turn socket t).2.2) := by
  induction ts generalizing h with
  | nil => rfl
  | cons a ts ih =>
      rw [List.cons_append, play_cons, ih]
      rfl

end Hub

def sentTo (log : List (Nat × List Outgoing)) (i : Nat) : List Outgoing :=
  (log.filter fun entry => entry.1 = i).flatMap Prod.snd

theorem sentTo_concat (log : List (Nat × List Outgoing)) (i j : Nat) (written : List Outgoing) :
    sentTo (log ++ [(j, written)]) i = sentTo log i ++ if j = i then written else [] := by
  unfold sentTo
  rw [List.filter_append, List.flatMap_append]
  by_cases hj : j = i
  · simp [hj]
  · simp [hj]

/-!
# Sessions of a group
-/

def sessionsIn (g : GroupName) (rooms : List GroupName) : List Nat :=
  (List.range rooms.length).filter fun i => rooms[i]? = some g

theorem mem_sessionsIn {g : GroupName} {rooms : List GroupName} {i : Nat} :
    i ∈ sessionsIn g rooms ↔ rooms[i]? = some g := by
  unfold sessionsIn
  rw [List.mem_filter, List.mem_range, decide_eq_true_eq]
  exact ⟨And.right, fun hroom => ⟨(List.getElem?_eq_some_iff.mp hroom).choose, hroom⟩⟩

theorem sessionsIn_lt {g : GroupName} {rooms : List GroupName} {k i : Nat}
    (hk : (sessionsIn g rooms)[k]? = some i) :
    k < (sessionsIn g rooms).length ∧ i < rooms.length := by
  have hroom := mem_sessionsIn.mp (List.mem_of_getElem? hk)
  exact ⟨(List.getElem?_eq_some_iff.mp hk).choose, (List.getElem?_eq_some_iff.mp hroom).choose⟩

theorem nodup_sessionsIn (g : GroupName) (rooms : List GroupName) : (sessionsIn g rooms).Nodup :=
  List.nodup_range.filter _

theorem sessionsIn_concat (g g' : GroupName) (rooms : List GroupName) :
    sessionsIn g (rooms ++ [g']) = sessionsIn g rooms ++ if g' = g then [rooms.length] else [] := by
  unfold sessionsIn
  rw [List.length_append, List.length_singleton, List.range_succ, List.filter_append]
  congr 1
  · apply List.filter_congr
    intro i hi
    rw [List.getElem?_append_left (List.mem_range.mp hi)]
  · by_cases hg : g' = g
    · simp [hg]
    · simp [hg]

theorem getElem?_sessionsIn_append {g : GroupName} {rooms : List GroupName} {k i : Nat}
    (hk : (sessionsIn g rooms)[k]? = some i) (arrival : Option GroupName) :
    (sessionsIn g (rooms ++ arrival.toList))[k]? = some i := by
  cases arrival with
  | none =>
      rw [Option.toList_none, List.append_nil]
      exact hk
  | some g' =>
      show (sessionsIn g (rooms ++ [g']))[k]? = some i
      rw [sessionsIn_concat, List.getElem?_append_left (sessionsIn_lt hk).left]
      exact hk

theorem of_getElem?_sessionsIn_append {g : GroupName} {rooms : List GroupName}
    {arrival : Option GroupName} {k i : Nat}
    (hk : (sessionsIn g (rooms ++ arrival.toList))[k]? = some i) :
    (sessionsIn g rooms)[k]? = some i ∨ (sessionsIn g rooms).length ≤ k ∧ rooms.length ≤ i := by
  cases arrival with
  | none =>
      rw [Option.toList_none, List.append_nil] at hk
      exact Or.inl hk
  | some g' =>
      change (sessionsIn g (rooms ++ [g']))[k]? = some i at hk
      rw [sessionsIn_concat, List.getElem?_append] at hk
      split at hk
      · exact Or.inl hk
      · rename_i hge
        have hi := List.mem_of_getElem? hk
        split at hi
        · rw [List.mem_singleton.mp hi]
          exact Or.inr ⟨Nat.le_of_not_lt hge, Nat.le_refl _⟩
        · cases hi

theorem sessionsIn_inj {g : GroupName} {rooms : List GroupName} {j k i : Nat}
    (hj : (sessionsIn g rooms)[j]? = some i) (hk : (sessionsIn g rooms)[k]? = some i) : j = k := by
  rcases List.getElem?_eq_some_iff.mp hj with ⟨hlt, hget⟩
  rcases List.getElem?_eq_some_iff.mp hk with ⟨hlt', hget'⟩
  exact (List.Nodup.getElem_inj_iff (nodup_sessionsIn g rooms)).mp (hget.trans hget'.symm)

theorem sessionsIn_replicate (g : GroupName) (n : Nat) :
    sessionsIn g (List.replicate n g) = List.range n := by
  unfold sessionsIn
  rw [List.length_replicate]
  apply List.filter_eq_self.mpr
  intro i hi
  rw [decide_eq_true_eq, List.getElem?_replicate, if_pos (List.mem_range.mp hi)]

/-!
# Shares
-/

def Turn.arrival? : Turn → Option GroupName
  | .go (.connect g _) => some g
  | _ => none

def roomsOf (ts : List (Socket × Turn)) : List GroupName :=
  ts.filterMap fun t => t.2.arrival?

theorem roomsOf_concat (ts : List (Socket × Turn)) (socket : Socket) (t : Turn) :
    roomsOf (ts ++ [(socket, t)]) = roomsOf ts ++ t.arrival?.toList := by
  unfold roomsOf
  rw [List.filterMap_append]
  cases harrival : t.arrival? <;> simp [harrival]

def Turn.within? (g : GroupName) (sessions : List Nat) : Turn → Option Turn
  | .go (.connect g' hint) => if g' = g then some (.go (.connect g' hint)) else none
  | .go (.read i frame) => (sessions.idxOf? i).map fun k => .go (.read k frame)
  | .go (.hear i) => (sessions.idxOf? i).map fun k => .go (.hear k)
  | .part i frame => (sessions.idxOf? i).map fun k => .part k frame
  | .clear i => (sessions.idxOf? i).map .clear

/-- The turns of the sessions of the group, if those of these rooms came before. -/
def shareFrom (g : GroupName) (rooms : List GroupName) :
    List (Socket × Turn) → List (Socket × Turn)
  | [] => []
  | (socket, t) :: ts =>
    ((t.within? g (sessionsIn g rooms)).map fun own => (socket, own)).toList ++
      shareFrom g (rooms ++ t.arrival?.toList) ts

def share (g : GroupName) (ts : List (Socket × Turn)) : List (Socket × Turn) :=
  shareFrom g [] ts

variable {g : GroupName} {ts ts' before : List (Socket × Turn)}

theorem shareFrom_append (g : GroupName) (rooms : List GroupName) (ts ts' : List (Socket × Turn)) :
    shareFrom g rooms (ts ++ ts') =
      shareFrom g rooms ts ++ shareFrom g (rooms ++ roomsOf ts) ts' := by
  induction ts generalizing rooms with
  | nil =>
      show shareFrom g rooms ts' = shareFrom g (rooms ++ []) ts'
      rw [List.append_nil]
  | cons t ts ih =>
      rcases t with ⟨socket, t⟩
      have hrooms : roomsOf ((socket, t) :: ts) = t.arrival?.toList ++ roomsOf ts := by
        unfold roomsOf
        cases harrival : t.arrival? <;> simp [harrival]
      show _ ++ shareFrom g (rooms ++ t.arrival?.toList) (ts ++ ts') = (_ ++ _) ++ _
      rw [ih, hrooms, List.append_assoc, List.append_assoc]

theorem share_concat (g : GroupName) (ts : List (Socket × Turn)) (socket : Socket) (t : Turn) :
    share g (ts ++ [(socket, t)]) =
      share g ts ++
        ((t.within? g (sessionsIn g (roomsOf ts))).map fun own => (socket, own)).toList := by
  unfold share
  rw [shareFrom_append, List.nil_append]
  show _ ++ (_ ++ []) = _
  rw [List.append_nil]

theorem share_mono (h : before <+: ts) : share g before <+: share g ts := by
  rcases h with ⟨rest, rfl⟩
  unfold share
  rw [shareFrom_append]
  exact List.prefix_append _ _

theorem exists_prefix_share {points : List (Socket × Turn)} (h : points <+: share g ts) :
    ∃ before, before <+: ts ∧ share g before = points := by
  induction ts using List.reverseRecOn with
  | nil => exact ⟨[], List.prefix_refl _, (List.prefix_nil.mp h).symm⟩
  | append_singleton ts t ih =>
      rcases t with ⟨socket, t⟩
      have hearlier : points <+: share g ts →
          ∃ before, before <+: ts ++ [(socket, t)] ∧ share g before = points := by
        intro hpoints
        rcases ih hpoints with ⟨before, hbefore, hshare⟩
        exact ⟨before, hbefore.trans (List.prefix_append _ _), hshare⟩
      have hconcat := share_concat g ts socket t
      cases hown : t.within? g (sessionsIn g (roomsOf ts)) with
      | none =>
          rw [hown, Option.map_none, Option.toList_none, List.append_nil] at hconcat
          rw [hconcat] at h
          exact hearlier h
      | some own =>
          rw [hown] at hconcat
          change _ = share g ts ++ [(socket, own)] at hconcat
          rw [hconcat] at h
          rcases List.prefix_concat_iff.mp h with hall | hpoints
          · exact ⟨ts ++ [(socket, t)], List.prefix_refl _, hconcat.trans hall.symm⟩
          · exact hearlier hpoints

theorem Turn.arrival?_within? (g : GroupName) (sessions : List Nat) (t : Turn) :
    ((t.within? g sessions).bind arrival?).toList = t.arrival?.toList.filter fun g' => g' = g := by
  cases t with
  | go m =>
      cases m with
      | connect g' hint =>
          show ((if g' = g then some (Turn.go (.connect g' hint)) else none).bind _).toList =
            [g'].filter _
          by_cases hg : g' = g
          · rw [if_pos hg]
            simp [hg, arrival?]
          · rw [if_neg hg]
            simp [hg]
      | read i frame =>
          show (((sessions.idxOf? i).map _).bind _).toList = []
          cases sessions.idxOf? i <;> rfl
      | hear i =>
          show (((sessions.idxOf? i).map _).bind _).toList = []
          cases sessions.idxOf? i <;> rfl
  | part i frame =>
      show (((sessions.idxOf? i).map _).bind _).toList = []
      cases sessions.idxOf? i <;> rfl
  | clear i =>
      show (((sessions.idxOf? i).map _).bind _).toList = []
      cases sessions.idxOf? i <;> rfl

theorem roomsOf_share (g : GroupName) (ts : List (Socket × Turn)) :
    roomsOf (share g ts) = List.replicate (sessionsIn g (roomsOf ts)).length g := by
  induction ts using List.reverseRecOn with
  | nil => rfl
  | append_singleton ts t ih =>
      rcases t with ⟨socket, t⟩
      have harrival := t.arrival?_within? g (sessionsIn g (roomsOf ts))
      have hrooms : roomsOf (share g (ts ++ [(socket, t)])) =
          roomsOf (share g ts) ++ t.arrival?.toList.filter fun g' => g' = g := by
        rw [← harrival, share_concat]
        cases t.within? g (sessionsIn g (roomsOf ts)) with
        | none =>
            rw [Option.map_none, Option.toList_none, List.append_nil]
            exact (List.append_nil _).symm
        | some own => exact roomsOf_concat (share g ts) socket own
      rw [hrooms, ih, roomsOf_concat]
      cases t.arrival? with
      | none => simp
      | some g' =>
          show _ ++ [g'].filter _ = List.replicate (sessionsIn g (roomsOf ts ++ [g'])).length g
          rw [sessionsIn_concat]
          by_cases hg : g' = g
          · subst hg
            simp [List.replicate_add]
          · simp [hg]

/-!
# Appearances
-/

/-- What can be seen of a group. -/
structure Appearance where
  /-- What each session of the group was sent, and where its connection stands. -/
  sessions : List (List Outgoing × Option Connection)
  members : Nat
  deriving DecidableEq

def appearance (capacity limit : Nat) (g : GroupName) (ts : List (Socket × Turn)) : Appearance :=
  let (log, h) := (Hub.ofLimits capacity limit).play ts
  ⟨(sessionsIn g (roomsOf ts)).map fun i =>
      (sentTo log i, (h.session? i).map Session.connection), h.groups.members g⟩

end Relay
end Parley
