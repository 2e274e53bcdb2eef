import Parley.Proofs.Relay.Ledger

/-!
# No group is split or stranded

Whatever comes between the two steps in which members leave: live members of one
group share the channel that the group has, so what one of them publishes reaches
the others, and once every leave is finished the groups that are there are those
with a live member. A second step that comes late may find the group revived, or
another group of that name, and leaves both alone.
-/

namespace Parley
namespace Relay

namespace Channel

theorem room_pos (capacity : Nat) : 0 < room capacity :=
  Nat.pos_of_isPowerOfTwo (Nat.isPowerOfTwo_nextPowerOfTwo _)

variable {c : Channel} {m : Message} {room place : Nat}

theorem exists_unread_send (hroom : 0 < room) (h : c.kept.length ≤ c.sent)
    (hplace : place ≤ c.sent) :
    ∃ before, (c.send room m).unread place = before ++ [m] := by
  have hdrop : c.kept.length + 1 - room + (place - (c.send room m).oldest) ≤ c.kept.length := by
    simp only [oldest, send, List.length_drop, List.length_append, List.length_singleton]
    omega
  refine ⟨c.kept.drop (c.kept.length + 1 - room + (place - (c.send room m).oldest)), ?_⟩
  calc
    (c.send room m).unread place =
        (c.kept ++ [m]).drop (c.kept.length + 1 - room + (place - (c.send room m).oldest)) :=
      List.drop_drop
    _ = _ ++ [m] := List.drop_append_of_le_length hdrop

end Channel

namespace Groups

variable {gs : Groups} {g : GroupName} {tag t : Tag}

theorem exists_pending_publish (h : gs.IsSound) (hroom : 0 < gs.room) (hg : gs.seat? tag = some g)
    (hg' : gs.seat? t = some g) (hne : t ≠ tag) (p : Payload) :
    ∃ before, (gs.publish tag p).2.pending t = before ++ [p] := by
  rcases seat?_eq_some hg' with ⟨s', hs', hlive', hgroup'⟩
  rcases gs.publish_eq tag p with ⟨_, hnone⟩ | ⟨s, hs, hlive, heq⟩
  · rw [hnone] at hg
    cases hg
  · rcases mem_of_subscription? hs with ⟨hmem, rfl⟩
    rcases mem_of_subscription? hs' with ⟨hmem', rfl⟩
    have hgroup : s.group = g := by
      unfold seat? at hg
      rw [hs] at hg
      simpa [hlive] using hg
    have hchannel : s'.channel = s.channel :=
      (h.group_eq hmem' hmem hlive' hlive).mpr (hgroup'.trans hgroup.symm)
    rcases Option.isSome_iff_exists.mp hlive' with ⟨place, hplace⟩
    have hbehind := h.behind s' hmem' place hplace
    rw [hchannel] at hbehind
    rcases Channel.exists_unread_send (m := ⟨s.tag, p⟩) hroom (h.kept s.channel) hbehind
      with ⟨before, hunread⟩
    refine ⟨foreign s'.tag before, ?_⟩
    have hsub : (gs.publish s.tag p).2.subscription? s'.tag = some s' := by
      rw [subscription?_publish, hs']
    have hsent : (gs.publish s.tag p).2.channelAt s'.channel =
        (gs.channelAt s.channel).send gs.room ⟨s.tag, p⟩ := by
      rw [heq, hchannel]
      exact (channelAt_modify _ _ _ _ (h.channel_lt hmem hlive)).trans (if_pos rfl)
    have hother : ¬ s.tag = s'.tag := Ne.symm hne
    unfold pending
    rw [hsub, Option.map_some, Option.getD_some, Subscription.pending, hplace, hsent]
    dsimp only
    rw [hunread, foreign_append]
    simp [foreign, hother]

theorem IsSound.members_eq (h : gs.IsSound) (g : GroupName) :
    gs.members g = gs.subscriptions.countP fun s => s.isLive && s.group = g := by
  unfold members
  cases hn : gs.channelOf? g with
  | none =>
      symm
      apply List.countP_eq_zero.mpr
      intro s hs hboth
      have hboth' : s.isLive = true ∧ s.group = g := by simpa using hboth
      apply not_mem_names_of_channelOf? hn
      rw [← hboth'.right]
      exact List.mem_map_of_mem (h.entered s hs hboth'.left)
  | some n =>
      have hentry := mem_entries_of_channelOf? hn
      rw [Option.map_some, Option.getD_some, receiversOf_eq, h.counted]
      apply List.countP_congr
      intro s hs
      unfold Subscription.receivesFrom
      cases hlive : s.isLive with
      | false => simp
      | true =>
          have hown := h.entered s hs hlive
          simp only [Bool.and_true, Bool.true_and, decide_eq_true_eq]
          constructor
          · intro hchannel
            exact congrArg Prod.fst (List.inj_on_of_nodup_map h.numbers hown hentry hchannel)
          · intro hgroup
            exact congrArg Prod.snd (List.inj_on_of_nodup_map h.names hown hentry hgroup)

end Groups

namespace Ledger

variable {c : Ledger} {g : GroupName} {t : Tag}

theorem room_run (capacity : Nat) (ms : List Groups.Move) :
    ((ofCapacity capacity).run ms).groups.room = Channel.room capacity := by
  apply run_keeps (P := fun c => c.groups.room = Channel.room capacity)
  · intro c m h
    rw [groups_move, Groups.room_move]
    exact h
  · rfl

theorem IsKept.members_eq (h : c.IsKept) (g : GroupName) :
    c.groups.members g = (c.members g).length := by
  rw [h.attended.sound.members_eq]
  apply h.countP_subscriptions
  · intro s hs
    rw [h.groupOf?_tag hs]
    cases s.isLive <;> simp
  · intro t ht
    rcases h.subscription (of_decide_eq_true ht) with ⟨s, hs, _⟩
    rw [hs]
    rfl

theorem IsKept.isLive_of_isSettled (h : c.IsKept) (hsettled : c.IsSettled) :
    ∀ s ∈ c.groups.subscriptions, s.isLive = true := by
  intro s hs
  cases hlive : s.isLive with
  | true => rfl
  | false =>
      exfalso
      apply hsettled s.tag
      rw [h.isHalfway_iff, h.attended.sound.enrolment?_eq hs]
      refine ⟨s.group, ?_⟩
      unfold Subscription.enrolment
      rw [hlive]

theorem IsKept.connections_eq (h : c.IsKept) (hsettled : c.IsSettled) :
    c.groups.connections = c.present.length := by
  have hlive := h.isLive_of_isSettled hsettled
  rw [h.attended.connected, ← List.countP_eq_length.mpr hlive]
  apply h.countP_subscriptions
  · intro s hs
    rw [h.groupOf?_tag hs, hlive s hs]
    rfl
  · intro t ht
    rcases Option.isSome_iff_exists.mp ht with ⟨g, hg⟩
    rcases h.subscription hg with ⟨s, hs, _⟩
    rw [hs]
    rfl

theorem IsKept.mem_entries_iff (h : c.IsKept) (hsettled : c.IsSettled) :
    g ∈ c.groups.entries.map Prod.fst ↔ ∃ t, c.groupOf? t = some g := by
  constructor
  · intro hg
    rcases List.mem_map.mp hg with ⟨e, he, rfl⟩
    rcases h.attended.hosted e he with ⟨t, live, ht⟩
    refine ⟨t, ?_⟩
    rw [h.groupOf?_eq_some_iff, ht]
    cases live with
    | true => rfl
    | false => exact (hsettled t (h.isHalfway_iff.mpr ⟨e.1, ht⟩)).elim
  · rintro ⟨t, ht⟩
    rcases h.subscription ht with ⟨s, hs, hlive, rfl⟩
    exact List.mem_map_of_mem
      (h.attended.sound.entered s (Groups.mem_of_subscription? hs).left hlive)

/-- In every interleaving of joins, both steps of leaves, and messages: live members use the
channel of their group and reach one another, no connection is taken off that was not counted, and
the counts of members are right; when no leave is half done, the groups are those with a live
member, each once, and the connections are the live members. -/
theorem registry_whole (capacity : Nat) (ms : List Groups.Move) :
    let c := (ofCapacity capacity).run ms
    (∀ t g, c.groupOf? t = some g → ∃ s, c.groups.subscription? t = some s ∧ s.place.isSome ∧
      s.group = g ∧ c.groups.channelOf? g = some s.channel) ∧
    (∀ t t' g, c.groupOf? t = some g → c.groupOf? t' = some g → t' ≠ t → ∀ p,
      ∃ before, (c.groups.publish t p).2.pending t' = before ++ [p]) ∧
    (∀ t, c.IsHalfway t → (c.groups.dropMember t).connections + 1 = c.groups.connections) ∧
    (∀ g, c.groups.members g = (c.members g).length) ∧
    (c.IsSettled →
      (c.groups.entries.map Prod.fst).Nodup ∧
      (∀ g, g ∈ c.groups.entries.map Prod.fst ↔ ∃ t, c.groupOf? t = some g) ∧
      c.groups.connections = c.present.length) := by
  intro c
  have h : c.IsKept := isKept_run capacity ms
  have hsound := h.attended.sound
  have hroom : 0 < c.groups.room := by
    rw [room_run]
    exact Channel.room_pos capacity
  refine ⟨?_, ?_, ?_, h.members_eq, ?_⟩
  · intro t g hg
    rcases h.subscription hg with ⟨s, hs, hlive, rfl⟩
    have hentry := hsound.entered s (Groups.mem_of_subscription? hs).left hlive
    exact ⟨s, hs, hlive, rfl, hsound.channelOf?_eq hentry⟩
  · intro t t' g hg hg' hne p
    rw [← h.seat?_eq] at hg hg'
    exact Groups.exists_pending_publish hsound hroom hg hg' hne p
  · intro t ht
    rcases h.isHalfway_iff.mp ht with ⟨g, hg⟩
    exact h.attended.connections_dropMember hg
  · intro hsettled
    exact ⟨hsound.names, fun _ => h.mem_entries_iff hsettled, h.connections_eq hsettled⟩

/-- Two leave a group at once; before they are done it is revived, emptied and made anew, and the
two late steps leave it to the two who are there then. -/
theorem registry_whole_of_late_leaves :
    let ms : List Groups.Move :=
      [.join ⟨"one"⟩, .join ⟨"one"⟩, .dropReceiver ⟨0⟩, .dropReceiver ⟨1⟩, .join ⟨"one"⟩,
        .dropMember ⟨0⟩, .dropReceiver ⟨2⟩, .dropMember ⟨2⟩, .join ⟨"one"⟩, .join ⟨"one"⟩,
        .dropMember ⟨1⟩]
    let c := (ofCapacity 1).run ms
    c.IsSettled ∧ c.groupOf? ⟨3⟩ = some ⟨"one"⟩ ∧ c.groupOf? ⟨4⟩ = some ⟨"one"⟩ ∧
      (c.groups.subscription? ⟨3⟩).map Subscription.channel = c.groups.channelOf? ⟨"one"⟩ ∧
      (∀ p, ∃ before, (c.groups.publish ⟨3⟩ p).2.pending ⟨4⟩ = before ++ [p]) ∧
      c.groups.members ⟨"one"⟩ = 2 ∧ c.groups.connections = 2 := by
  intro ms c
  rcases registry_whole 1 ms with ⟨hchannel, hreach, _, hmembers, hrest⟩
  have hsettled : c.IsSettled := by
    intro t
    have hfive : c.stays.map Stay.presence =
        [.gone, .gone, .gone, .here, .here] := by decide +kernel
    unfold IsHalfway stay?
    rw [← List.getElem?_map, hfive]
    rcases t with ⟨_ | _ | _ | _ | _ | n⟩ <;> simp
  have hthree : c.groupOf? ⟨3⟩ = some ⟨"one"⟩ := by decide +kernel
  have hfour : c.groupOf? ⟨4⟩ = some ⟨"one"⟩ := by decide +kernel
  rcases hchannel ⟨3⟩ ⟨"one"⟩ hthree with ⟨s, hs, _, _, hown⟩
  refine ⟨hsettled, hthree, hfour, ?_, hreach ⟨3⟩ ⟨4⟩ ⟨"one"⟩ hthree hfour (by decide), ?_, ?_⟩
  · rw [hown, hs]
    rfl
  · exact (hmembers ⟨"one"⟩).trans (by decide +kernel)
  · exact (hrest hsettled).right.right.trans (by decide +kernel)

end Ledger
end Relay
end Parley
