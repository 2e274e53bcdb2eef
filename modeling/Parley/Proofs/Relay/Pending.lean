import Parley.Proofs.Relay.Groups

/-!
# What members have before them

What others have sent to a member's group while the member was in it, as far as
the member has not read it. A message is put behind what is there already, for
all members of the group but the sender; reading takes the first away; nothing
else that happens in this group or another makes a difference, as long as the
channel does not forget what is still to be read.
-/

namespace Parley
namespace Relay

def Subscription.pending (s : Subscription) (c : Channel) : List Payload :=
  match s.place with
  | some place => foreign s.tag (c.unread place)
  | none => []

namespace Groups

variable {gs : Groups} {g : GroupName} {tag t : Tag}

def pending (gs : Groups) (tag : Tag) : List Payload :=
  ((gs.subscription? tag).map fun s => s.pending (gs.channelAt s.channel)).getD []

/-- Whether the channel forgot what the member has not read. -/
def IsOvertaken (gs : Groups) (tag : Tag) : Prop :=
  ∃ s ∈ gs.subscription? tag, ∃ place ∈ s.place, place < (gs.channelAt s.channel).oldest

instance : Decidable (gs.IsOvertaken tag) :=
  inferInstanceAs (Decidable (∃ s ∈ gs.subscription? tag, ∃ place ∈ s.place, _))

theorem seat?_congr {gs' : Groups} (hsub : gs'.subscription? t = gs.subscription? t) :
    gs'.seat? t = gs.seat? t := by
  rw [seat?, seat?, hsub]

theorem pending_congr {gs' : Groups} (hsub : gs'.subscription? t = gs.subscription? t)
    (hlog : ∀ n, (gs'.channelAt n).kept = (gs.channelAt n).kept ∧
      (gs'.channelAt n).sent = (gs.channelAt n).sent) : gs'.pending t = gs.pending t := by
  have hunread : ∀ n place, (gs'.channelAt n).unread place = (gs.channelAt n).unread place := by
    intro n place
    simp only [Channel.unread, Channel.oldest, (hlog n).left, (hlog n).right]
  simp only [pending, hsub, Subscription.pending, hunread]

/-!
# Joining
-/

theorem channelAt_join (h : gs.IsSound) (g : GroupName) (n : Nat) :
    ((gs.join g).2.channelAt n).kept = (gs.channelAt n).kept ∧
      ((gs.join g).2.channelAt n).sent = (gs.channelAt n).sent := by
  change (((gs.withChannel g).2.subscribe g (gs.withChannel g).1).channelAt n).kept = _ ∧
    (((gs.withChannel g).2.subscribe g (gs.withChannel g).1).channelAt n).sent = _
  rw [channelAt_subscribe (h.withChannel g) (mem_entries_withChannel gs g)]
  split
  · rename_i hn
    subst hn
    rw [channelAt_withChannel]
    exact ⟨rfl, rfl⟩
  · rw [channelAt_withChannel]
    exact ⟨rfl, rfl⟩

theorem subscription?_join (h : gs.IsSound) (g : GroupName) (t : Tag) :
    (gs.join g).2.subscription? t =
      if t = (gs.join g).1 then
        some ⟨t, g, (gs.withChannel g).1, some (gs.channelAt (gs.withChannel g).1).sent⟩
      else gs.subscription? t := by
  change ((gs.withChannel g).2.subscribe g (gs.withChannel g).1).subscriptions.find? _ = _
  rw [subscriptions_subscribe, subscriptions_withChannel, channelAt_withChannel,
    joined_withChannel, List.find?_append]
  change _ = if t = ⟨gs.joined⟩ then _ else _
  by_cases ht : t = ⟨gs.joined⟩
  · subst ht
    have hnone : gs.subscriptions.find? (fun s => s.tag = ⟨gs.joined⟩) = none := by
      apply List.find?_eq_none.mpr
      intro s hs htag
      have hgiven := h.given s hs
      rw [show s.tag = ⟨gs.joined⟩ by simpa using htag] at hgiven
      exact Nat.lt_irrefl _ hgiven
    rw [hnone, if_pos rfl]
    simp
  · rw [if_neg ht]
    simp [Ne.symm ht, subscription?]

theorem seat?_join (h : gs.IsSound) (g : GroupName) (t : Tag) :
    (gs.join g).2.seat? t = if t = (gs.join g).1 then some g else gs.seat? t := by
  rw [seat?, subscription?_join h]
  split <;> rfl

theorem pending_join (h : gs.IsSound) (g : GroupName) (t : Tag) :
    (gs.join g).2.pending t = if t = (gs.join g).1 then [] else gs.pending t := by
  have hsub := subscription?_join h g t
  by_cases ht : t = (gs.join g).1
  · rw [if_pos ht] at hsub ⊢
    rw [pending, hsub]
    have hsent := (channelAt_join h g (gs.withChannel g).1).right
    change foreign t (((gs.join g).2.channelAt _).unread (gs.channelAt _).sent) = []
    rw [← hsent, Channel.unread_sent ((h.join g).kept _)]
    rfl
  · rw [if_neg ht] at hsub ⊢
    exact pending_congr hsub (channelAt_join h g)

/-!
# Leaving
-/

theorem channelAt_dropReceiver (h : gs.IsSound) (tag : Tag) (n : Nat) :
    ((gs.dropReceiver tag).channelAt n).kept = (gs.channelAt n).kept ∧
      ((gs.dropReceiver tag).channelAt n).sent = (gs.channelAt n).sent := by
  rcases gs.dropReceiver_eq tag with ⟨hsame, hnone⟩ | ⟨s, hs, hlive, heq⟩
  · rw [hsame]
    exact ⟨rfl, rfl⟩
  · have hmem := (mem_of_subscription? hs).left
    rw [heq, channelAt, channelAt_modify _ _ _ _ (h.channel_lt hmem hlive)]
    split
    · rename_i hn
      subst hn
      exact ⟨rfl, rfl⟩
    · exact ⟨rfl, rfl⟩

theorem seat?_dropReceiver_self (gs : Groups) (tag : Tag) :
    (gs.dropReceiver tag).seat? tag = none := by
  rcases gs.dropReceiver_eq tag with ⟨hsame, hnone⟩ | ⟨s, hs, hlive, heq⟩
  · rw [hsame]
    exact hnone
  · apply seat?_eq_none_of
    intro t g n place hfind
    rcases mem_of_subscription? hfind with ⟨hs', htag⟩
    rw [heq] at hs'
    rcases mem_setPlace hs' with ⟨_, hne⟩ | ⟨_, _, _, hgone⟩
    · exact hne htag
    · cases hgone

theorem subscription?_dropReceiver_of_ne (hne : t ≠ tag) :
    (gs.dropReceiver tag).subscription? t = gs.subscription? t := by
  rcases gs.dropReceiver_eq tag with ⟨hsame, hnone⟩ | ⟨s, _, _, heq⟩
  · rw [hsame]
  · rw [heq]
    exact find?_setPlace_of_ne hne none

theorem seat?_dropReceiver_of_ne (hne : t ≠ tag) :
    (gs.dropReceiver tag).seat? t = gs.seat? t :=
  seat?_congr (subscription?_dropReceiver_of_ne hne)

theorem pending_dropReceiver_of_ne (h : gs.IsSound) (hne : t ≠ tag) :
    (gs.dropReceiver tag).pending t = gs.pending t :=
  pending_congr (subscription?_dropReceiver_of_ne hne) (channelAt_dropReceiver h tag)

theorem subscription?_dropMember_of_ne (hne : t ≠ tag) :
    (gs.dropMember tag).subscription? t = gs.subscription? t := by
  rcases gs.dropMember_eq tag with hsame | ⟨s, _, _, heq⟩
  · rw [hsame]
  · rw [heq]
    change (gs.subscriptions.filter _).find? _ = _
    rw [List.find?_filter]
    unfold subscription?
    congr 1
    funext s'
    by_cases htag : s'.tag = t
    · simp [htag, hne]
    · simp [htag]

theorem subscription?_dropMember (gs : Groups) (tag t : Tag) :
    (gs.dropMember tag).subscription? t = gs.subscription? t ∨
      gs.seat? t = none ∧ (gs.dropMember tag).subscription? t = none := by
  rcases gs.dropMember_eq tag with hsame | ⟨s, hs, hgone, heq⟩
  · rw [hsame]
    exact Or.inl rfl
  · by_cases ht : t = tag
    · subst ht
      refine Or.inr ⟨seat?_of_not_isLive hs hgone, ?_⟩
      rw [heq]
      apply List.find?_eq_none.mpr
      intro s' hs'
      simpa using List.of_mem_filter hs'
    · exact Or.inl (subscription?_dropMember_of_ne ht)

theorem seat?_dropMember (gs : Groups) (tag t : Tag) :
    (gs.dropMember tag).seat? t = gs.seat? t := by
  rcases subscription?_dropMember gs tag t with hsame | ⟨hseat, hnone⟩
  · exact seat?_congr hsame
  · rw [hseat, seat?, hnone]
    rfl

theorem pending_of_seat?_none (h : gs.seat? t = none) : gs.pending t = [] := by
  rw [pending]
  cases hs : gs.subscription? t with
  | none => rfl
  | some s =>
      rcases s with ⟨_, _, _, _ | place⟩
      · rfl
      · rw [seat?, hs] at h
        cases h

theorem pending_dropMember (gs : Groups) (tag t : Tag) :
    (gs.dropMember tag).pending t = gs.pending t := by
  have hlog : ∀ n, (gs.dropMember tag).channelAt n = gs.channelAt n := by
    intro n
    rcases gs.dropMember_eq tag with hsame | ⟨_, _, _, heq⟩
    · rw [hsame]
    · rw [heq]
      rfl
  rcases subscription?_dropMember gs tag t with hsame | ⟨hseat, hnone⟩
  · exact pending_congr hsame fun n => by rw [hlog n]; exact ⟨rfl, rfl⟩
  · rw [pending_of_seat?_none hseat, pending, hnone]
    rfl

/-- One who leaves loses the seat with the first step; the others see neither of the steps. -/
theorem leaving (h : gs.IsSound) {gs' : Groups}
    (hleft : gs' = gs.dropReceiver tag ∨ gs' = gs.leave tag) :
    gs'.IsSound ∧ gs'.joined = gs.joined ∧ gs'.seat? tag = none ∧
      ∀ t, t ≠ tag → gs'.seat? t = gs.seat? t ∧ gs'.pending t = gs.pending t := by
  have hfirst := h.dropReceiver tag
  rcases hleft with rfl | rfl
  · exact ⟨hfirst, gs.joined_dropReceiver tag, gs.seat?_dropReceiver_self tag,
      fun t ht => ⟨seat?_dropReceiver_of_ne ht, pending_dropReceiver_of_ne h ht⟩⟩
  · refine ⟨hfirst.dropMember tag, ?_, ?_, ?_⟩
    · rw [leave, joined_dropMember, joined_dropReceiver]
    · rw [leave, seat?_dropMember, seat?_dropReceiver_self]
    · intro t ht
      rw [leave, seat?_dropMember, pending_dropMember]
      exact ⟨seat?_dropReceiver_of_ne ht, pending_dropReceiver_of_ne h ht⟩

/-!
# Messages
-/

theorem subscription?_publish (gs : Groups) (tag t : Tag) (p : Payload) :
    (gs.publish tag p).2.subscription? t = gs.subscription? t := by
  rcases gs.publish_eq tag p with ⟨hsame, _⟩ | ⟨_, _, _, heq⟩
  · rw [hsame]
  · rw [heq]
    rfl

theorem seat?_publish (gs : Groups) (tag t : Tag) (p : Payload) :
    (gs.publish tag p).2.seat? t = gs.seat? t :=
  seat?_congr (subscription?_publish gs tag t p)

theorem pending_publish (h : gs.IsSound) (hg : gs.seat? tag = some g) {g' : GroupName}
    (hg' : gs.seat? t = some g') (p : Payload) (hkept : ¬ (gs.publish tag p).2.IsOvertaken t) :
    (gs.publish tag p).2.pending t =
      if t ≠ tag ∧ g' = g then gs.pending t ++ [p] else gs.pending t := by
  rcases seat?_eq_some hg' with ⟨s', hs', hlive', rfl⟩
  rcases gs.publish_eq tag p with ⟨_, hnone⟩ | ⟨s, hs, hlive, heq⟩
  · rw [hnone] at hg
    cases hg
  · rcases mem_of_subscription? hs with ⟨hmem, rfl⟩
    rcases mem_of_subscription? hs' with ⟨hmem', rfl⟩
    rw [seat?, hs] at hg
    have hgroup : s.group = g := by simpa [hlive] using hg
    have hsub' : (gs.publish s.tag p).2.subscription? s'.tag = some s' := by
      rw [subscription?_publish, hs']
    have hchannel : (gs.publish s.tag p).2.channelAt s'.channel =
        if s'.channel = s.channel then (gs.channelAt s.channel).send gs.room ⟨s.tag, p⟩
        else gs.channelAt s'.channel := by
      rw [heq]
      exact channelAt_modify _ _ _ _ (h.channel_lt hmem hlive)
    rcases Option.isSome_iff_exists.mp hlive' with ⟨place, hplace⟩
    have hbefore : gs.pending s'.tag =
        foreign s'.tag ((gs.channelAt s'.channel).unread place) := by
      rw [pending, hs', Option.map_some, Option.getD_some, Subscription.pending, hplace]
    have hafter : (gs.publish s.tag p).2.pending s'.tag =
        foreign s'.tag (((gs.publish s.tag p).2.channelAt s'.channel).unread place) := by
      rw [pending, hsub', Option.map_some, Option.getD_some, Subscription.pending, hplace]
    rw [hafter, hbefore]
    by_cases hsame : s'.channel = s.channel
    · have hoverlap : s'.group = g := by
        rw [← hgroup]
        exact (h.group_eq hmem' hmem hlive' hlive).mp hsame
      have holdest : ((gs.channelAt s.channel).send gs.room ⟨s.tag, p⟩).oldest ≤ place := by
        by_contra hlt
        refine hkept ⟨s', hsub', place, hplace, ?_⟩
        rw [hchannel, if_pos hsame]
        exact Nat.lt_of_not_le hlt
      have hbehind := h.behind s' hmem' place hplace
      rw [hsame] at hbehind
      rw [hchannel, if_pos hsame, hsame,
        Channel.unread_send (h.kept s.channel) hbehind holdest, foreign_append]
      by_cases hown : s'.tag = s.tag
      · simp [hown, foreign]
      · simp [hown, Ne.symm hown, hoverlap, foreign]
    · have hapart : s'.group ≠ g := by
        intro hg
        exact hsame ((h.group_eq hmem' hmem hlive' hlive).mpr (hg.trans hgroup.symm))
      rw [hchannel, if_neg hsame, if_neg fun hboth => hapart hboth.right]

theorem subscription?_receive_of_ne (hne : t ≠ tag) :
    (gs.receive tag).2.subscription? t = gs.subscription? t := by
  rcases gs.receive_eq tag with ⟨hsame, _⟩ | ⟨_, _, _, _, heq⟩
  · rw [hsame]
  · rw [heq]
    exact find?_setPlace_of_ne hne _

theorem channelAt_receive (gs : Groups) (tag : Tag) (n : Nat) :
    (gs.receive tag).2.channelAt n = gs.channelAt n := by
  rcases gs.receive_eq tag with ⟨hsame, _⟩ | ⟨_, _, _, _, heq⟩
  · rw [hsame]
  · rw [heq]
    rfl

theorem pending_receive_of_ne (hne : t ≠ tag) :
    (gs.receive tag).2.pending t = gs.pending t :=
  pending_congr (subscription?_receive_of_ne hne) fun n => by
    rw [channelAt_receive]
    exact ⟨rfl, rfl⟩

theorem subscription?_receive_self (h : gs.IsSound) {s : Subscription} {place : Nat}
    (hs : gs.subscription? tag = some s) (hplace : s.place = some place) :
    (gs.receive tag).2.subscription? tag =
      some { s with place := some ((gs.channelAt s.channel).receive tag place).2 } := by
  rcases gs.receive_eq tag with ⟨_, hnone⟩ | ⟨s₀, place₀, hs₀, hplace₀, heq⟩
  · rw [seat?, hs] at hnone
    simp [Subscription.isLive, hplace] at hnone
  · rw [hs] at hs₀
    cases hs₀
    rw [hplace] at hplace₀
    cases hplace₀
    rcases mem_of_subscription? hs with ⟨hmem, rfl⟩
    have hmoved : { s with place := some ((gs.channelAt s.channel).receive s.tag place).2 } ∈
        (gs.receive s.tag).2.subscriptions := by
      rw [heq]
      exact List.mem_map.mpr ⟨s, hmem, if_pos rfl⟩
    exact (h.receive s.tag).subscription?_eq hmoved

theorem seat?_receive (h : gs.IsSound) (tag t : Tag) :
    (gs.receive tag).2.seat? t = gs.seat? t := by
  by_cases ht : t = tag
  · subst ht
    rcases gs.receive_eq t with ⟨hsame, _⟩ | ⟨s, place, hs, hplace, _⟩
    · rw [hsame]
    · rw [seat?, seat?, subscription?_receive_self h hs hplace, hs]
      simp [Subscription.isLive, hplace]
  · exact seat?_congr (subscription?_receive_of_ne ht)

theorem pending_receive_self (h : gs.IsSound) (hkept : ¬ gs.IsOvertaken tag) :
    gs.pending tag = (gs.receive tag).1.toList ++ (gs.receive tag).2.pending tag := by
  rcases gs.receive_eq tag with ⟨hsame, hnone⟩ | ⟨s, place, hs, hplace, heq⟩
  · rw [hsame, pending_of_seat?_none hnone]
    rfl
  · have hmoved := subscription?_receive_self h hs hplace
    have htag := (mem_of_subscription? hs).right
    have hoverlap : (gs.channelAt s.channel).oldest ≤ place := by
      by_contra hlt
      exact hkept ⟨s, hs, place, hplace, Nat.lt_of_not_le hlt⟩
    rw [pending, hs, pending, hmoved]
    simp only [Option.map_some, Option.getD_some, Subscription.pending, hplace, htag, heq]
    exact Channel.foreign_receive hoverlap

theorem receive_fst_eq_head? (gs : Groups) (tag : Tag) :
    (gs.receive tag).1 = (gs.pending tag).head? := by
  rcases gs.receive_eq tag with ⟨hsame, hnone⟩ | ⟨s, place, hs, hplace, heq⟩
  · rw [hsame, pending_of_seat?_none hnone]
    rfl
  · rw [heq, pending, hs]
    simp only [Option.map_some, Option.getD_some, Subscription.pending, hplace,
      (mem_of_subscription? hs).right]
    exact Channel.receive_fst_eq_head?

end Groups
end Relay
end Parley
