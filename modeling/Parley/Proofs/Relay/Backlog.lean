import Mathlib.Data.List.Infix
import Parley.Proofs.Relay.Registry

/-!
# What is lost to slow readers

A channel keeps the last messages of all that were ever sent to it. A reader goes on
where it left off, or with the oldest message that is kept, up to the first message
of somebody else; so it goes past everything in order, and a message of somebody
else that it does not get had as many messages after it as the channel keeps.
-/

namespace Parley
namespace Relay

namespace Channel

variable {c : Channel} {m : Message} {me : Tag} {room place : Nat} {log : List Message}

/-!
# The first message of another
-/

theorem foreign_take_firstFrom (me : Tag) (ms : List Message) :
    foreign me (ms.take (firstFrom me ms).2) = (firstFrom me ms).1.toList := by
  induction ms with
  | nil => rfl
  | cons m ms ih =>
      unfold firstFrom
      split
      · rename_i hown
        rw [List.take_succ_cons, ← ih]
        simp [foreign, hown]
      · rename_i hother
        simp [foreign, hother]

theorem firstFrom_of_foreign (me : Tag) {ms : List Message} {k : Nat} (hk : k < (firstFrom me ms).2)
    (hm : ms[k]? = some m) (hother : m.origin ≠ me) :
    k + 1 = (firstFrom me ms).2 ∧ (firstFrom me ms).1 = some m.payload := by
  induction ms generalizing k with
  | nil => cases hm
  | cons a ms ih =>
      unfold firstFrom at hk ⊢
      split
      · rename_i hown
        rw [if_pos hown] at hk
        cases k with
        | zero =>
            cases hm
            exact (hother hown).elim
        | succ k =>
            rcases ih (Nat.lt_of_succ_lt_succ hk) hm with ⟨hlast, hgot⟩
            exact ⟨congrArg (· + 1) hlast, hgot⟩
      · rename_i hforeign
        rw [if_neg hforeign] at hk
        have hzero : k = 0 := Nat.lt_one_iff.mp hk
        subst hzero
        cases hm
        exact ⟨rfl, rfl⟩

/-!
# What a channel keeps
-/

/-- The channel keeps the last messages of this log, as many as there is room for. -/
structure Holds (c : Channel) (room : Nat) (log : List Message) : Prop where
  sent : c.sent = log.length
  kept : c.kept = log.drop (log.length - room)

theorem holds_empty (room : Nat) : empty.Holds room [] where
  sent := rfl
  kept := List.drop_nil.symm

theorem Holds.congr {c' : Channel} (h : c.Holds room log)
    (hsame : c'.kept = c.kept ∧ c'.sent = c.sent) : c'.Holds room log where
  sent := hsame.right.trans h.sent
  kept := hsame.left.trans h.kept

theorem Holds.send (h : c.Holds room log) (m : Message) :
    (c.send room m).Holds room (log ++ [m]) := by
  constructor
  · show c.sent + 1 = _
    rw [h.sent, List.length_append, List.length_singleton]
  · show (c.kept ++ [m]).drop (c.kept.length + 1 - room) = _
    have hlength : c.kept.length = log.length - (log.length - room) := by
      rw [h.kept, List.length_drop]
    have hsplit : (log ++ [m]).drop (log.length - room) = c.kept ++ [m] := by
      rw [h.kept]
      exact List.drop_append_of_le_length (Nat.sub_le _ _)
    rw [← hsplit, List.drop_drop, List.length_append, List.length_singleton]
    congr 1
    omega

theorem Holds.receive_eq (h : c.Holds room log) (me : Tag) (place : Nat) :
    c.receive me place =
      ((firstFrom me (log.drop (max place (log.length - room)))).1,
        max place (log.length - room) +
          (firstFrom me (log.drop (max place (log.length - room)))).2) := by
  have hlength : c.kept.length = log.length - (log.length - room) := by
    rw [h.kept, List.length_drop]
  have holdest : c.oldest = log.length - room := by
    unfold oldest
    rw [h.sent, hlength]
    omega
  have hunread : c.unread place = log.drop (max place (log.length - room)) := by
    unfold unread
    rw [holdest, h.kept, List.drop_drop]
    congr 1
    omega
  unfold receive
  rw [hunread, holdest]

end Channel

namespace Publication

def message (x : Publication) : Message :=
  ⟨x.author, x.payload⟩

end Publication

theorem foreign_sublist {me : Tag} {ms ms' : List Message} (h : ms.Sublist ms') :
    (foreign me ms).Sublist (foreign me ms') :=
  (h.filter _).map _

namespace Ledger

variable {c : Ledger} {g : GroupName} {t tag : Tag}

/-!
# What a reader went past
-/

def stretchesOf (c : Ledger) (t : Tag) : List Stretch :=
  c.stretches.filter fun x => x.reader = t

def received (c : Ledger) (t : Tag) : List Payload :=
  (c.stretchesOf t).filterMap Stretch.got

def reach (c : Ledger) (t : Tag) : Nat :=
  ((c.stretchesOf t).getLast?.map Stretch.stop).getD 0

def publishedByOthers (c : Ledger) (t : Tag) : List Payload :=
  ((c.published t).filter fun x => x.author ≠ t).map Publication.payload

theorem foreign_map_message (t : Tag) (xs : List Publication) :
    foreign t (xs.map Publication.message) =
      (xs.filter fun x => x.author ≠ t).map Publication.payload := by
  unfold foreign
  rw [List.filter_map, List.map_map]
  rfl

/-- A stretch goes past a message of somebody else only if that is what it got, or if as many
messages were published after it as a channel keeps. -/
def Spares (c : Ledger) (t : Tag) (x : Stretch) : Prop :=
  ∀ k ∈ x.places, ∀ post, (c.published t)[k]? = some post → post.author ≠ t →
    k + 1 = x.stop ∧ x.got = some post.payload ∨ k + 1 + c.groups.room ≤ x.published

structure IsRead (c : Ledger) (t : Tag) : Prop where
  onward : (c.stretchesOf t).flatMap Stretch.places = List.range (c.reach t)
  within : c.reach t ≤ (c.published t).length
  inOrder : (c.received t).Sublist
    (foreign t (((c.published t).take (c.reach t)).map Publication.message))
  spared : ∀ x ∈ c.stretchesOf t, x.stop ≤ (c.published t).length ∧ c.Spares t x

structure IsLogged (c : Ledger) : Prop where
  kept : c.IsKept
  logs : ∀ n, ∃ log, (c.groups.channelAt n).Holds c.groups.room log
  places : ∀ t s place, c.groups.subscription? t = some s → s.place = some place →
    ∃ before, (c.groups.channelAt s.channel).Holds c.groups.room
      (before ++ (c.published t).map Publication.message) ∧ place = before.length + c.reach t
  unknown : ∀ t, c.stay? t = none → c.stretchesOf t = []
  since : ∀ y ∈ c.stays, y.since ≤ c.publications.length
  read : ∀ t, c.IsRead t

theorem isRead_of_nil (h : c.stretchesOf t = []) : c.IsRead t := by
  have hreach : c.reach t = 0 := by
    unfold reach
    rw [h]
    rfl
  have hreceived : c.received t = [] := by
    unfold received
    rw [h]
    rfl
  constructor
  · rw [h, hreach]
    rfl
  · rw [hreach]
    exact Nat.zero_le _
  · rw [hreceived]
    exact List.nil_sublist _
  · intro x hx
    rw [h] at hx
    cases hx

theorem isLogged_ofCapacity (capacity : Nat) : (ofCapacity capacity).IsLogged where
  kept := isKept_ofCapacity capacity
  logs n := ⟨[], Channel.holds_empty _⟩
  places _ _ _ hs := by cases hs
  unknown _ _ := rfl
  since _ hy := by cases hy
  read _ := isRead_of_nil rfl

theorem mem_places_lt {x : Stretch} {k : Nat} (hk : k ∈ x.places) : k < x.stop := by
  unfold Stretch.places at hk
  rcases List.mem_range'_1.mp hk with ⟨_, hlt⟩
  omega

theorem IsRead.of_append {c' : Ledger} (h : c.IsRead t) (more : List Publication)
    (hpublished : c'.published t = c.published t ++ more)
    (hstretches : c'.stretchesOf t = c.stretchesOf t)
    (hroom : c'.groups.room = c.groups.room) : c'.IsRead t := by
  have hreach : c'.reach t = c.reach t := by
    unfold reach
    rw [hstretches]
  have hreceived : c'.received t = c.received t := by
    unfold received
    rw [hstretches]
  constructor
  · rw [hstretches, hreach]
    exact h.onward
  · rw [hreach, hpublished, List.length_append]
    exact Nat.le_add_right_of_le h.within
  · rw [hreceived, hreach, hpublished, List.take_append_of_le_length h.within]
    exact h.inOrder
  · intro x hx
    rw [hstretches] at hx
    rcases h.spared x hx with ⟨hstop, hspares⟩
    constructor
    · rw [hpublished, List.length_append]
      exact Nat.le_add_right_of_le hstop
    · intro k hk post hpost hother
      rw [hpublished,
        List.getElem?_append_left (Nat.lt_of_lt_of_le (mem_places_lt hk) hstop)] at hpost
      rw [hroom]
      exact hspares k hk post hpost hother

/-!
# What moves do to the record
-/

theorem published_congr {c' : Ledger} {f : Stay → Stay}
    (hstay : c'.stay? t = c.stay? t ∨ c'.stay? t = (c.stay? t).map f)
    (hf : ∀ y, (f y).group = y.group ∧ (f y).since = y.since)
    (hpublications : c'.publications = c.publications) : c'.published t = c.published t := by
  unfold published
  rw [hpublications]
  rcases hstay with hstay | hstay
  · rw [hstay]
  · rw [hstay]
    cases c.stay? t with
    | none => rfl
    | some y =>
        show (c.publications.drop (f y).since).filter (fun x => x.group = (f y).group) = _
        rw [(hf y).left, (hf y).right]

theorem published_dropReceiver (c : Ledger) (tag t : Tag) :
    (c.move (.dropReceiver tag)).published t = c.published t := by
  apply published_congr (f := Stay.dropReceiver)
  · rw [show (c.move (.dropReceiver tag)).stay? t = _ from stay?_modify c Stay.dropReceiver tag t]
    split
    · exact Or.inr rfl
    · exact Or.inl rfl
  · exact fun y => ⟨y.group_dropReceiver, y.since_dropReceiver⟩
  · rfl

theorem published_dropMember (c : Ledger) (tag t : Tag) :
    (c.move (.dropMember tag)).published t = c.published t := by
  apply published_congr (f := Stay.dropMember)
  · rw [show (c.move (.dropMember tag)).stay? t = _ from stay?_modify c Stay.dropMember tag t]
    split
    · exact Or.inr rfl
    · exact Or.inl rfl
  · exact fun y => ⟨y.group_dropMember, y.since_dropMember⟩
  · rfl

theorem published_join_self (c : Ledger) (g : GroupName) (ht : t.number = c.stays.length) :
    (c.move (.join g)).published t = [] := by
  unfold published
  rw [stay?_join, if_pos ht]
  show (c.publications.drop c.publications.length).filter _ = []
  rw [List.drop_length]
  rfl

theorem published_join_of_ne (c : Ledger) (g : GroupName) (ht : t.number ≠ c.stays.length) :
    (c.move (.join g)).published t = c.published t := by
  unfold published
  rw [stay?_join, if_neg ht]
  rfl

theorem publications_publish_of_none (hg : c.groupOf? tag = none) (p : Payload) :
    (c.move (.publish tag p)).publications = c.publications := by
  show c.publications ++ ((c.groupOf? tag).map _).toList = _
  rw [hg]
  exact List.append_nil _

theorem published_publish (hg : c.groupOf? tag = some g) (p : Payload) {y : Stay}
    (hy : c.stay? t = some y) (hsince : y.since ≤ c.publications.length) :
    (c.move (.publish tag p)).published t =
      c.published t ++ if y.group = g then [⟨tag, g, p⟩] else [] := by
  unfold published
  rw [show (c.move (.publish tag p)).stay? t = c.stay? t from rfl, hy]
  show ((c.publications ++ ((c.groupOf? tag).map _).toList).drop y.since).filter _ =
    (c.publications.drop y.since).filter _ ++ _
  rw [hg, List.drop_append_of_le_length hsince, List.filter_append]
  congr 1
  by_cases hsame : y.group = g
  · simp [hsame]
  · simp [hsame, Ne.symm hsame]

theorem stretchesOf_receive_of_ne (c : Ledger) (hne : t ≠ tag) :
    (c.move (.receive tag)).stretchesOf t = c.stretchesOf t := by
  unfold stretchesOf
  show (c.stretches ++ (c.stretch? tag).toList).filter _ = _
  rw [List.filter_append]
  unfold stretch?
  split
  · simp [Ne.symm hne]
  · simp

theorem stretchesOf_receive_self (c : Ledger) (t : Tag) :
    (c.move (.receive t)).stretchesOf t = c.stretchesOf t ++ (c.stretch? t).toList := by
  unfold stretchesOf
  show (c.stretches ++ (c.stretch? t).toList).filter _ = _
  rw [List.filter_append]
  congr 1
  unfold stretch?
  split
  · simp
  · rfl

/-!
# One call to receive
-/

section Receiving

variable {s : Subscription} {place : Nat} {before : List Message}

theorem ahead_eq {gs : Groups} (hs : gs.subscription? t = some s) (hplace : s.place = some place) :
    gs.ahead t = (gs.channelAt s.channel).sent - place := by
  rcases s with ⟨tag, g, n, place?⟩
  cases hplace
  unfold Groups.ahead
  rw [hs]

def resume (c : Ledger) (t : Tag) : Nat :=
  max (c.reach t) ((c.published t).length - c.groups.room)

def found (c : Ledger) (t : Tag) : Option Payload × Nat :=
  Channel.firstFrom t (((c.published t).drop (c.resume t)).map Publication.message)

theorem found_le (c : Ledger) (t : Tag) :
    (c.found t).2 ≤ (c.published t).length - c.resume t := by
  refine (Channel.firstFrom_snd_le _ _).trans ?_
  rw [List.length_map, List.length_drop]

theorem IsRead.resume_le (h : c.IsRead t) : c.resume t ≤ (c.published t).length := by
  unfold resume
  exact Nat.max_le.mpr ⟨h.within, Nat.sub_le _ _⟩

theorem receive_eq_found
    (hholds : (c.groups.channelAt s.channel).Holds c.groups.room
      (before ++ (c.published t).map Publication.message))
    (hplace : place = before.length + c.reach t) :
    (c.groups.channelAt s.channel).receive t place =
      ((c.found t).1, before.length + c.resume t + (c.found t).2) := by
  have hresume : max place ((before ++ (c.published t).map Publication.message).length -
      c.groups.room) = before.length + c.resume t := by
    unfold resume
    rw [List.length_append, List.length_map, hplace]
    omega
  rw [hholds.receive_eq, hresume]
  unfold found
  rw [List.map_drop, ← List.drop_drop, List.drop_left]

theorem IsLogged.stretch?_eq (h : c.IsLogged) (hg : c.groupOf? t = some g) :
    ∃ s before, c.groups.subscription? t = some s ∧
      s.place = some (before.length + c.reach t) ∧
      (c.groups.channelAt s.channel).Holds c.groups.room
        (before ++ (c.published t).map Publication.message) ∧
      (c.groups.receive t).2.subscription? t =
        some { s with place := some (before.length + c.resume t + (c.found t).2) } ∧
      c.stretch? t =
        some ⟨t, c.reach t, c.resume t + (c.found t).2, (c.found t).1,
          (c.published t).length⟩ := by
  rcases h.kept.subscription hg with ⟨s, hs, hlive, _⟩
  rcases Option.isSome_iff_exists.mp hlive with ⟨place, hplace⟩
  rcases h.places t s place hs hplace with ⟨before, hholds, hpos⟩
  have hread := receive_eq_found hholds hpos
  have hmoved := Groups.subscription?_receive_self h.kept.attended.sound hs hplace
  have hgot : (c.groups.receive t).1 = (c.found t).1 := by
    rcases c.groups.receive_eq t with ⟨_, hnone⟩ | ⟨s₀, place₀, hs₀, hplace₀, heq⟩
    · rw [h.kept.seat?_eq, hg] at hnone
      cases hnone
    · rw [hs] at hs₀
      cases hs₀
      rw [hplace] at hplace₀
      cases hplace₀
      rw [heq, hread]
  rw [hread] at hmoved
  have hsent : (c.groups.channelAt s.channel).sent = before.length + (c.published t).length := by
    rw [hholds.sent, List.length_append, List.length_map]
  have hfound := c.found_le t
  have hresume := (h.read t).resume_le
  refine ⟨s, before, hs, hpos ▸ hplace, hholds, hmoved, ?_⟩
  have hahead := ahead_eq hs hplace
  have hahead' : (c.groups.receive t).2.ahead t =
      (c.groups.channelAt s.channel).sent - (before.length + c.resume t + (c.found t).2) := by
    have hmovedAhead := ahead_eq hmoved rfl
    rw [Groups.channelAt_receive] at hmovedAhead
    exact hmovedAhead
  have hstart : (c.published t).length - c.groups.ahead t = c.reach t := by
    have hwithin := (h.read t).within
    rw [hahead, hsent]
    omega
  have hstop : (c.published t).length - (c.groups.receive t).2.ahead t =
      c.resume t + (c.found t).2 := by
    rw [hahead', hsent]
    omega
  unfold stretch?
  rw [hg, hstart, hstop, hgot]
  rfl

theorem IsLogged.reach_receive (h : c.IsLogged) (hg : c.groupOf? t = some g) :
    (c.move (.receive t)).reach t = c.resume t + (c.found t).2 := by
  rcases h.stretch?_eq hg with ⟨_, _, _, _, _, _, hstretch⟩
  unfold reach
  rw [stretchesOf_receive_self, hstretch, Option.toList_some, List.getLast?_concat]
  rfl

/-- Going on keeps the order, and what is left out was out of reach. -/
theorem IsLogged.isRead_receive (h : c.IsLogged) (hg : c.groupOf? t = some g) :
    (c.move (.receive t)).IsRead t := by
  have hreach := h.reach_receive hg
  rcases h.stretch?_eq hg with ⟨_, _, _, _, _, _, hstretch⟩
  have hstretches := stretchesOf_receive_self c t
  rw [hstretch, Option.toList_some] at hstretches
  have hpublished : (c.move (.receive t)).published t = c.published t := rfl
  have hroom : (c.move (.receive t)).groups.room = c.groups.room :=
    Groups.room_move c.groups (.receive t)
  have hread := h.read t
  have honward : c.reach t ≤ c.resume t := Nat.le_max_left _ _
  have hfound := c.found_le t
  have hresume := hread.resume_le
  constructor
  · rw [hstretches, hreach, List.flatMap_append, hread.onward, List.flatMap_singleton]
    unfold Stretch.places
    rw [List.range_eq_range', List.range_eq_range']
    have happend := List.range'_append_1 (s := 0) (m := c.reach t)
      (n := c.resume t + (c.found t).2 - c.reach t)
    rw [Nat.zero_add] at happend
    rw [happend]
    congr 1
    omega
  · rw [hreach, hpublished]
    omega
  · have hreceived : (c.move (.receive t)).received t = c.received t ++ (c.found t).1.toList := by
      unfold received
      rw [hstretches, List.filterMap_append]
      cases (c.found t).1 <;> rfl
    have htake : ((c.published t).take (c.resume t + (c.found t).2)).map Publication.message =
        ((c.published t).take (c.resume t)).map Publication.message ++
          (((c.published t).drop (c.resume t)).map Publication.message).take (c.found t).2 := by
      rw [List.take_add, List.map_append, List.map_take (l := (c.published t).drop _)]
    have hgot : foreign t ((((c.published t).drop (c.resume t)).map Publication.message).take
        (c.found t).2) = (c.found t).1.toList :=
      Channel.foreign_take_firstFrom t _
    rw [hreceived, hreach, hpublished, htake, foreign_append, hgot]
    apply List.Sublist.append
    · refine hread.inOrder.trans (foreign_sublist ?_)
      exact (List.take_sublist_take_left honward).map _
    · exact List.Sublist.refl _
  · intro x hx
    rw [hstretches] at hx
    rw [hpublished]
    rcases List.mem_append.mp hx with hold | hnew
    · rcases hread.spared x hold with ⟨hstop, hspares⟩
      refine ⟨hstop, ?_⟩
      intro k hk post hpost hother
      rw [hroom]
      exact hspares k hk post hpost hother
    · rw [List.mem_singleton.mp hnew]
      constructor
      · dsimp only
        omega
      · intro k hk post hpost hother
        rw [hpublished] at hpost
        rw [hroom]
        unfold Stretch.places at hk
        rcases List.mem_range'_1.mp hk with ⟨hstart, hstop⟩
        dsimp only at hstart hstop ⊢
        -- Either the place was skipped, being too old to be kept, or it was looked at.
        by_cases hskipped : k < c.resume t
        · right
          unfold resume at hskipped
          omega
        · left
          have hlook :
              (((c.published t).drop (c.resume t)).map Publication.message)[k - c.resume t]? =
                some post.message := by
            rw [List.getElem?_map, List.getElem?_drop,
              show c.resume t + (k - c.resume t) = k by omega, hpost]
            rfl
          have hnear : k - c.resume t < (c.found t).2 := by
            omega
          rcases Channel.firstFrom_of_foreign t hnear hlook hother with ⟨hlast, hpayload⟩
          refine ⟨?_, hpayload⟩
          change _ = (c.found t).2 at hlast
          omega

end Receiving

end Ledger
end Relay
end Parley
