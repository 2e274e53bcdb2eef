import Parley.Proofs.Relay.Pending

/-!
# Who is on the list

A member is on the list of the groups from joining to the second step of leaving,
and receives up to the first step. Each operation changes the place of one member
on the list at most; the connections are those on the list, and a group that is
there always has somebody on it, who will take it away when leaving if nobody else
receives.
-/

namespace Parley
namespace Relay

def Subscription.enrolment (s : Subscription) : GroupName × Bool :=
  (s.group, s.isLive)

namespace Groups

variable {gs : Groups} {g : GroupName} {tag t : Tag}

def enrolment? (gs : Groups) (t : Tag) : Option (GroupName × Bool) :=
  (gs.subscription? t).map Subscription.enrolment

theorem enrolment?_congr {gs' : Groups} (h : gs'.subscription? t = gs.subscription? t) :
    gs'.enrolment? t = gs.enrolment? t := by
  unfold enrolment?
  rw [h]

theorem seat?_eq_enrolment? (gs : Groups) (t : Tag) :
    gs.seat? t = (gs.enrolment? t).bind fun e => if e.2 then some e.1 else none := by
  unfold seat? enrolment?
  cases gs.subscription? t <;> rfl

theorem enrolment?_eq_some {live : Bool} (h : gs.enrolment? t = some (g, live)) :
    ∃ s, gs.subscription? t = some s ∧ s.group = g ∧ s.isLive = live := by
  rcases Option.map_eq_some_iff.mp h with ⟨s, hs, he⟩
  cases he
  exact ⟨s, hs, rfl, rfl⟩

theorem IsSound.enrolment?_eq (h : gs.IsSound) {s : Subscription} (hs : s ∈ gs.subscriptions) :
    gs.enrolment? s.tag = some s.enrolment := by
  unfold enrolment?
  rw [h.subscription?_eq hs]
  rfl

/-!
# What operations do to the list
-/

theorem enrolment?_join (h : gs.IsSound) (g : GroupName) (t : Tag) :
    (gs.join g).2.enrolment? t = if t = (gs.join g).1 then some (g, true) else gs.enrolment? t := by
  unfold enrolment?
  rw [subscription?_join h]
  split <;> rfl

theorem find?_setPlace_self (subs : List Subscription) (tag : Tag) (place : Option Nat) :
    (setPlace subs tag place).find? (fun s => s.tag = tag) =
      (subs.find? fun s => s.tag = tag).map fun s => { s with place := place } := by
  induction subs with
  | nil => rfl
  | cons a subs ih =>
      show ((if a.tag = tag then { a with place := place } else a) ::
        setPlace subs tag place).find? _ = _
      by_cases htag : a.tag = tag
      · rw [if_pos htag]
        simp [htag]
      · rw [if_neg htag]
        simp [htag, ih]

theorem subscription?_dropReceiver_self (gs : Groups) (tag : Tag) :
    (gs.dropReceiver tag).subscription? tag =
      (gs.subscription? tag).map fun s => { s with place := none } := by
  unfold dropReceiver
  split
  · exact find?_setPlace_self gs.subscriptions tag none
  · rename_i hgone
    cases hs : gs.subscription? tag with
    | none => rfl
    | some s =>
        rcases s with ⟨t, g, n, _ | place⟩
        · rfl
        · exact (hgone t g n place hs).elim

theorem enrolment?_dropReceiver (gs : Groups) (tag t : Tag) :
    (gs.dropReceiver tag).enrolment? t =
      if t = tag then (gs.enrolment? t).map fun e => (e.1, false) else gs.enrolment? t := by
  by_cases ht : t = tag
  · subst ht
    unfold enrolment?
    rw [if_pos rfl, subscription?_dropReceiver_self]
    cases gs.subscription? t <;> rfl
  · rw [if_neg ht]
    exact enrolment?_congr (subscription?_dropReceiver_of_ne ht)

theorem enrolment?_dropMember_self (gs : Groups) (tag : Tag) :
    (gs.dropMember tag).enrolment? tag = (gs.enrolment? tag).filter fun e => e.2 := by
  unfold enrolment?
  cases hs : gs.subscription? tag with
  | none =>
      rw [dropMember_of_stayed, hs]
      · rfl
      · intro s hs'
        rw [hs] at hs'
        cases hs'
  | some s =>
      cases hlive : s.isLive with
      | true =>
          rw [dropMember_of_stayed, hs]
          · simp [Subscription.enrolment, hlive, Option.filter_some]
          · intro s' hs'
            rw [hs] at hs'
            cases hs'
            exact hlive
      | false =>
          have hnone : (gs.dropMember tag).subscription? tag = none := by
            rw [dropMember_of_gone hs hlive]
            apply List.find?_eq_none.mpr
            intro s' hs'
            simpa using List.of_mem_filter hs'
          rw [hnone]
          simp [Subscription.enrolment, hlive, Option.filter_some]

theorem enrolment?_dropMember (gs : Groups) (tag t : Tag) :
    (gs.dropMember tag).enrolment? t =
      if t = tag then (gs.enrolment? t).filter fun e => e.2 else gs.enrolment? t := by
  by_cases ht : t = tag
  · subst ht
    rw [if_pos rfl]
    exact enrolment?_dropMember_self gs t
  · rw [if_neg ht]
    exact enrolment?_congr (subscription?_dropMember_of_ne ht)

theorem enrolment?_publish (gs : Groups) (tag t : Tag) (p : Payload) :
    (gs.publish tag p).2.enrolment? t = gs.enrolment? t :=
  enrolment?_congr (subscription?_publish gs tag t p)

theorem enrolment?_receive (h : gs.IsSound) (tag t : Tag) :
    (gs.receive tag).2.enrolment? t = gs.enrolment? t := by
  by_cases ht : t = tag
  · subst ht
    rcases gs.receive_eq t with ⟨hsame, _⟩ | ⟨s, place, hs, hplace, _⟩
    · rw [hsame]
    · unfold enrolment?
      rw [subscription?_receive_self h hs hplace, hs]
      simp [Subscription.enrolment, Subscription.isLive, hplace]
  · exact enrolment?_congr (subscription?_receive_of_ne ht)

/-!
# Groups are attended to
-/

structure IsAttended (gs : Groups) : Prop where
  sound : gs.IsSound
  /-- Somebody is on the list for each group, perhaps one who has yet to finish leaving. -/
  hosted : ∀ e ∈ gs.entries, ∃ t live, gs.enrolment? t = some (e.1, live)
  connected : gs.connections = gs.subscriptions.length

theorem isAttended_ofCapacity (capacity : Nat) : (ofCapacity capacity).IsAttended where
  sound := isSound_ofCapacity capacity
  hosted _ he := by cases he
  connected := rfl

theorem entries_join (gs : Groups) (g : GroupName) :
    ∀ e ∈ (gs.join g).2.entries, e ∈ gs.entries ∨ e.1 = g := by
  intro e he
  change e ∈ (gs.withChannel g).2.entries at he
  unfold withChannel at he
  split at he
  · exact Or.inl he
  · rcases List.mem_append.mp he with hold | hnew
    · exact Or.inl hold
    · rw [List.mem_singleton.mp hnew]
      exact Or.inr rfl

theorem IsAttended.join (h : gs.IsAttended) (g : GroupName) : (gs.join g).2.IsAttended := by
  constructor
  · exact h.sound.join g
  · intro e he
    rcases entries_join gs g e he with hold | hnew
    · rcases h.hosted e hold with ⟨t, live, ht⟩
      refine ⟨t, live, ?_⟩
      rw [enrolment?_join h.sound, if_neg]
      · exact ht
      · rintro rfl
        rcases enrolment?_eq_some ht with ⟨s, hs, _⟩
        rcases mem_of_subscription? hs with ⟨hmem, htag⟩
        have hgiven := h.sound.given s hmem
        rw [htag] at hgiven
        exact Nat.lt_irrefl _ hgiven
    · refine ⟨(gs.join g).1, true, ?_⟩
      rw [enrolment?_join h.sound, if_pos rfl, hnew]
  · show (gs.withChannel g).2.connections + 1 =
      ((gs.withChannel g).2.subscribe g (gs.withChannel g).1).subscriptions.length
    have hsame : (gs.withChannel g).2.connections = gs.connections := by
      unfold withChannel
      split <;> rfl
    rw [subscriptions_subscribe, subscriptions_withChannel, List.length_append, hsame, h.connected]
    rfl

theorem IsAttended.dropReceiver (h : gs.IsAttended) (tag : Tag) :
    (gs.dropReceiver tag).IsAttended := by
  constructor
  · exact h.sound.dropReceiver tag
  · intro e he
    have hold : e ∈ gs.entries := by
      rcases gs.dropReceiver_eq tag with ⟨hsame, _⟩ | ⟨_, _, _, heq⟩
      · rw [hsame] at he
        exact he
      · rw [heq] at he
        exact he
    rcases h.hosted e hold with ⟨t, live, ht⟩
    by_cases htag : t = tag
    · refine ⟨t, false, ?_⟩
      rw [enrolment?_dropReceiver, if_pos htag, ht]
      rfl
    · refine ⟨t, live, ?_⟩
      rw [enrolment?_dropReceiver, if_neg htag]
      exact ht
  · rcases gs.dropReceiver_eq tag with ⟨hsame, _⟩ | ⟨s, _, _, heq⟩
    · rw [hsame]
      exact h.connected
    · rw [heq]
      show gs.connections = (setPlace gs.subscriptions tag none).length
      rw [h.connected]
      exact (List.length_map _).symm

theorem IsSound.length_filter_tag (h : gs.IsSound) {s : Subscription} (hs : s ∈ gs.subscriptions) :
    (gs.subscriptions.filter fun s' => s'.tag ≠ s.tag).length + 1 = gs.subscriptions.length := by
  have hone : (gs.subscriptions.map Subscription.tag).count s.tag = 1 :=
    List.count_eq_one_of_mem h.tags (List.mem_map_of_mem hs)
  have hsplit := gs.subscriptions.length_eq_countP_add_countP fun s' => s'.tag == s.tag
  rw [List.count, List.countP_map] at hone
  rw [← List.countP_eq_length_filter, hsplit, Nat.add_comm]
  congr 1
  · exact hone.symm
  · apply List.countP_congr
    intro s' _
    simp

theorem IsAttended.dropMember (h : gs.IsAttended) (tag : Tag) : (gs.dropMember tag).IsAttended := by
  rcases gs.dropMember_eq tag with hsame | ⟨s, hs, hgone, heq⟩
  · rw [hsame]
    exact h
  rcases mem_of_subscription? hs with ⟨hmem, rfl⟩
  constructor
  · exact h.sound.dropMember s.tag
  · intro e he
    rw [heq] at he
    rcases List.mem_filter.mp he with ⟨hold, hkept⟩
    rcases h.hosted e hold with ⟨t, live, ht⟩
    by_cases htag : t = s.tag
    · -- The one who leaves is on the list for this group, so it stays for another who receives.
      subst htag
      rw [h.sound.enrolment?_eq hmem] at ht
      have hgroup : e.1 = s.group := (congrArg Prod.fst (Option.some.inj ht)).symm
      have hreceivers : 0 < gs.subscriptions.countP (·.receivesFrom e.2) := by
        rw [← h.sound.counted, ← receiversOf_eq]
        apply Nat.pos_of_ne_zero
        simpa [hgroup] using hkept
      rcases List.countP_pos_iff.mp hreceivers with ⟨s', hs', hreceives⟩
      have hreceives' : s'.channel = e.2 ∧ s'.isLive = true := by
        simpa [Subscription.receivesFrom] using hreceives
      have hentry : (s'.group, s'.channel) = e := by
        have hown := h.sound.entered s' hs' hreceives'.right
        exact List.inj_on_of_nodup_map h.sound.numbers hown hold hreceives'.left
      refine ⟨s'.tag, true, ?_⟩
      rw [enrolment?_dropMember, if_neg, h.sound.enrolment?_eq hs', ← hentry]
      · exact congrArg (fun live => some (s'.group, live)) hreceives'.right
      · intro htags
        rw [List.inj_on_of_nodup_map h.sound.tags hs' hmem htags, hgone] at hreceives'
        cases hreceives'.right
    · refine ⟨t, live, ?_⟩
      rw [enrolment?_dropMember, if_neg htag]
      exact ht
  · rw [heq]
    show gs.connections - 1 = (gs.subscriptions.filter _).length
    have hlength := h.sound.length_filter_tag hmem
    rw [h.connected]
    omega

theorem IsAttended.publish (h : gs.IsAttended) (tag : Tag) (p : Payload) :
    (gs.publish tag p).2.IsAttended := by
  rcases gs.publish_eq tag p with ⟨hsame, _⟩ | ⟨_, _, _, heq⟩
  · rw [hsame]
    exact h
  · constructor
    · exact h.sound.publish tag p
    · intro e he
      rw [heq] at he
      rcases h.hosted e he with ⟨t, live, ht⟩
      exact ⟨t, live, (enrolment?_publish gs tag t p).trans ht⟩
    · rw [heq]
      exact h.connected

theorem IsAttended.receive (h : gs.IsAttended) (tag : Tag) : (gs.receive tag).2.IsAttended := by
  rcases gs.receive_eq tag with ⟨hsame, _⟩ | ⟨_, _, _, _, heq⟩
  · rw [hsame]
    exact h
  · constructor
    · exact h.sound.receive tag
    · intro e he
      rw [heq] at he
      rcases h.hosted e he with ⟨t, live, ht⟩
      exact ⟨t, live, (enrolment?_receive h.sound tag t).trans ht⟩
    · rw [heq]
      show gs.connections = (setPlace gs.subscriptions tag _).length
      rw [h.connected]
      exact (List.length_map _).symm

theorem IsAttended.connections_dropMember (h : gs.IsAttended)
    (hleaving : gs.enrolment? tag = some (g, false)) :
    (gs.dropMember tag).connections + 1 = gs.connections := by
  rcases enrolment?_eq_some hleaving with ⟨s, hs, _, hgone⟩
  rcases mem_of_subscription? hs with ⟨hmem, rfl⟩
  have hlength := h.sound.length_filter_tag hmem
  have hless : (gs.dropMember s.tag).connections = gs.connections - 1 := by
    rw [dropMember_of_gone hs hgone]
  rw [hless, h.connected]
  omega

end Groups
end Relay
end Parley
