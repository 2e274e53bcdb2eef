import Parley.Proofs.Relay.Backlog

/-!
# Nothing is lost within the buffer

Every move keeps the record of what readers went past: what each has received is
some of what others published for it, in that order, and what it missed had as many
messages after it as a channel keeps.
-/

namespace Parley
namespace Relay
namespace Ledger

variable {c : Ledger} {g : GroupName} {t tag : Tag}

/-!
# Moves keep the record
-/

theorem IsLogged.joined (h : c.IsLogged) (g : GroupName) : (c.move (.join g)).IsLogged := by
  have hsound := h.kept.attended.sound
  have hroom : (c.move (.join g)).groups.room = c.groups.room := Groups.room_move _ (.join g)
  have hlog := Groups.channelAt_join hsound g
  have hnew : ∀ t : Tag, t = (c.groups.join g).1 ↔ t.number = c.stays.length := by
    intro t
    rw [← h.kept.joined]
    exact ⟨fun ht => congrArg Tag.number ht, fun ht => congrArg Tag.mk ht⟩
  have hunknown : ∀ t : Tag, t.number = c.stays.length → c.stretchesOf t = [] := by
    intro t ht
    apply h.unknown
    exact List.getElem?_eq_none (Nat.le_of_eq ht.symm)
  refine ⟨h.kept.move _, ?_, ?_, ?_, ?_, ?_⟩
  · intro n
    rcases h.logs n with ⟨log, hholds⟩
    rw [hroom]
    exact ⟨log, hholds.congr (hlog n)⟩
  · intro t s place hs hplace
    rw [hroom]
    change (c.groups.join g).2.subscription? t = some s at hs
    rw [Groups.subscription?_join hsound] at hs
    by_cases ht : t = (c.groups.join g).1
    · rw [if_pos ht] at hs
      cases hs
      cases hplace
      have hnumber := (hnew t).mp ht
      have hreach : (c.move (.join g)).reach t = 0 := by
        unfold reach
        rw [show (c.move (.join g)).stretchesOf t = [] from hunknown t hnumber]
        rfl
      rcases h.logs (c.groups.withChannel g).1 with ⟨log, hholds⟩
      refine ⟨log, ?_, ?_⟩
      · rw [published_join_self c g hnumber, List.map_nil, List.append_nil]
        exact hholds.congr (hlog _)
      · rw [hreach, hholds.sent]
        rfl
    · rw [if_neg ht] at hs
      rcases h.places t s place hs hplace with ⟨before, hholds, hpos⟩
      refine ⟨before, ?_, hpos⟩
      rw [published_join_of_ne c g (ht ∘ (hnew t).mpr)]
      exact hholds.congr (hlog _)
  · intro t ht
    rw [stay?_join] at ht
    split at ht
    · cases ht
    · exact h.unknown t ht
  · intro y hy
    rcases List.mem_append.mp hy with hold | hlast
    · exact h.since y hold
    · rw [List.mem_singleton.mp hlast]
      exact Nat.le_refl _
  · intro t
    by_cases ht : t.number = c.stays.length
    · exact isRead_of_nil (hunknown t ht)
    · apply (h.read t).of_append []
      · rw [published_join_of_ne c g ht, List.append_nil]
      · rfl
      · exact hroom

theorem IsLogged.of_leaving {m : Groups.Move} (h : c.IsLogged)
    (hlog : ∀ n, ((c.move m).groups.channelAt n).kept = (c.groups.channelAt n).kept ∧
      ((c.move m).groups.channelAt n).sent = (c.groups.channelAt n).sent)
    (hplaces : ∀ t s place, (c.move m).groups.subscription? t = some s → s.place = some place →
      c.groups.subscription? t = some s)
    (hpublished : ∀ t, (c.move m).published t = c.published t)
    (hstretches : (c.move m).stretches = c.stretches)
    (hunknown : ∀ t, (c.move m).stay? t = none → c.stay? t = none)
    (hsince : ∀ y ∈ (c.move m).stays, y.since ≤ (c.move m).publications.length) :
    (c.move m).IsLogged := by
  have hroom : (c.move m).groups.room = c.groups.room := by
    rw [groups_move, Groups.room_move]
  have hstretchesOf : ∀ t, (c.move m).stretchesOf t = c.stretchesOf t := by
    intro t
    unfold stretchesOf
    rw [hstretches]
  refine ⟨h.kept.move _, ?_, ?_, ?_, hsince, ?_⟩
  · intro n
    rcases h.logs n with ⟨log, hholds⟩
    rw [hroom]
    exact ⟨log, hholds.congr (hlog n)⟩
  · intro t s place hs hplace
    rcases h.places t s place (hplaces t s place hs hplace) hplace with ⟨before, hholds, hpos⟩
    refine ⟨before, ?_, ?_⟩
    · rw [hroom, hpublished]
      exact hholds.congr (hlog _)
    · unfold reach
      rw [hstretchesOf]
      exact hpos
  · intro t ht
    rw [hstretchesOf]
    exact h.unknown t (hunknown t ht)
  · intro t
    apply (h.read t).of_append []
    · rw [hpublished, List.append_nil]
    · exact hstretchesOf t
    · exact hroom

theorem since_le_of_mem_modify {f : Stay → Stay} (hf : ∀ y, (f y).since = y.since) {n bound : Nat}
    {ys : List Stay} (h : ∀ y ∈ ys, y.since ≤ bound) : ∀ y ∈ ys.modify n f, y.since ≤ bound := by
  intro y hy
  rcases List.mem_iff_getElem?.mp hy with ⟨k, hk⟩
  rw [List.getElem?_modify] at hk
  rcases Option.map_eq_some_iff.mp hk with ⟨y₀, hy₀, rfl⟩
  have hold := h y₀ (List.mem_of_getElem? hy₀)
  split
  · rw [hf]
    exact hold
  · exact hold

theorem IsLogged.droppedReceiver (h : c.IsLogged) (tag : Tag) :
    (c.move (.dropReceiver tag)).IsLogged := by
  apply h.of_leaving
  · exact Groups.channelAt_dropReceiver h.kept.attended.sound tag
  · intro t s place hs hplace
    change (c.groups.dropReceiver tag).subscription? t = some s at hs
    by_cases ht : t = tag
    · subst ht
      rw [Groups.subscription?_dropReceiver_self] at hs
      rcases Option.map_eq_some_iff.mp hs with ⟨_, _, rfl⟩
      cases hplace
    · rw [Groups.subscription?_dropReceiver_of_ne ht] at hs
      exact hs
  · exact published_dropReceiver c tag
  · rfl
  · intro t ht
    rw [show (c.move (.dropReceiver tag)).stay? t = _ from
      stay?_modify c Stay.dropReceiver tag t] at ht
    split at ht
    · exact Option.map_eq_none_iff.mp ht
    · exact ht
  · exact since_le_of_mem_modify Stay.since_dropReceiver h.since

theorem IsLogged.droppedMember (h : c.IsLogged) (tag : Tag) :
    (c.move (.dropMember tag)).IsLogged := by
  apply h.of_leaving
  · intro n
    show ((c.groups.dropMember tag).channelAt n).kept = _ ∧
      ((c.groups.dropMember tag).channelAt n).sent = _
    rcases c.groups.dropMember_eq tag with hsame | ⟨_, _, _, heq⟩
    · rw [hsame]
      exact ⟨rfl, rfl⟩
    · rw [heq]
      exact ⟨rfl, rfl⟩
  · intro t s place hs _
    change (c.groups.dropMember tag).subscription? t = some s at hs
    rcases Groups.subscription?_dropMember c.groups tag t with hsame | ⟨_, hnone⟩
    · rw [← hsame]
      exact hs
    · rw [hnone] at hs
      cases hs
  · exact published_dropMember c tag
  · rfl
  · intro t ht
    rw [show (c.move (.dropMember tag)).stay? t = _ from
      stay?_modify c Stay.dropMember tag t] at ht
    split at ht
    · exact Option.map_eq_none_iff.mp ht
    · exact ht
  · exact since_le_of_mem_modify Stay.since_dropMember h.since

theorem IsKept.stay_of_subscription (h : c.IsKept) {s : Subscription}
    (hs : c.groups.subscription? t = some s) : ∃ y, c.stay? t = some y ∧ y.group = s.group := by
  have hlisted := h.listed t
  unfold Groups.enrolment? at hlisted
  rw [hs] at hlisted
  cases hy : c.stay? t with
  | none =>
      rw [hy] at hlisted
      cases hlisted
  | some y =>
      refine ⟨y, rfl, ?_⟩
      rw [hy] at hlisted
      rcases y with ⟨g, since, _ | _ | _⟩
      · exact (congrArg Prod.fst (Option.some.inj hlisted)).symm
      · exact (congrArg Prod.fst (Option.some.inj hlisted)).symm
      · cases hlisted

theorem IsLogged.since_of_stay (h : c.IsLogged) {y : Stay} (hy : c.stay? t = some y) :
    y.since ≤ c.publications.length :=
  h.since y (List.mem_of_getElem? hy)

theorem IsLogged.published_of_group (h : c.IsLogged) (tag t : Tag) (p : Payload) :
    ∃ more, (c.move (.publish tag p)).published t = c.published t ++ more := by
  cases hg : c.groupOf? tag with
  | none =>
      refine ⟨[], ?_⟩
      unfold published
      rw [publications_publish_of_none hg, List.append_nil]
      rfl
  | some g =>
      cases hy : c.stay? t with
      | none =>
          refine ⟨[], ?_⟩
          unfold published
          rw [show (c.move (.publish tag p)).stay? t = c.stay? t from rfl, hy]
          rfl
      | some y => exact ⟨_, published_publish hg p hy (h.since_of_stay hy)⟩

theorem IsLogged.publishedTo (h : c.IsLogged) (tag : Tag) (p : Payload) :
    (c.move (.publish tag p)).IsLogged := by
  have hsound := h.kept.attended.sound
  have hroom : (c.move (.publish tag p)).groups.room = c.groups.room :=
    Groups.room_move _ (.publish tag p)
  have hread : ∀ t, (c.move (.publish tag p)).IsRead t := by
    intro t
    rcases h.published_of_group tag t p with ⟨more, hmore⟩
    exact (h.read t).of_append more hmore rfl hroom
  have hsince : ∀ y ∈ c.stays, y.since ≤ (c.move (.publish tag p)).publications.length := by
    intro y hy
    show _ ≤ (c.publications ++ _).length
    rw [List.length_append]
    exact Nat.le_add_right_of_le (h.since y hy)
  rcases c.groups.publish_eq tag p with ⟨hsame, hnone⟩ | ⟨s, hs, hlive, heq⟩
  · have hgroups : (c.move (.publish tag p)).groups = c.groups := hsame
    rw [h.kept.seat?_eq] at hnone
    refine ⟨h.kept.move _, ?_, ?_, h.unknown, hsince, hread⟩
    · rw [hgroups]
      exact h.logs
    · rw [hgroups]
      intro t s place hs hplace
      have hpublished : (c.move (.publish tag p)).published t = c.published t := by
        unfold published
        rw [publications_publish_of_none hnone]
        rfl
      rw [hpublished]
      exact h.places t s place hs hplace
  · rcases Groups.mem_of_subscription? hs with ⟨hmem, rfl⟩
    have hg : c.groupOf? s.tag = some s.group := by
      rw [h.kept.groupOf?_tag hmem, if_pos hlive]
    have hchannel : ∀ n, (c.move (.publish s.tag p)).groups.channelAt n =
        if n = s.channel then (c.groups.channelAt s.channel).send c.groups.room ⟨s.tag, p⟩
        else c.groups.channelAt n := by
      intro n
      show (c.groups.publish s.tag p).2.channelAt n = _
      rw [heq]
      exact Groups.channelAt_modify _ _ _ _ (hsound.channel_lt hmem hlive)
    refine ⟨h.kept.move _, ?_, ?_, h.unknown, hsince, hread⟩
    · intro n
      rw [hroom, hchannel]
      split
      · rcases h.logs s.channel with ⟨log, hholds⟩
        exact ⟨_, hholds.send _⟩
      · exact h.logs n
    · intro t s' place hs' hplace
      have hsub : c.groups.subscription? t = some s' := by
        rw [← Groups.subscription?_publish c.groups s.tag t p]
        exact hs'
      rcases Groups.mem_of_subscription? hsub with ⟨hmem', _⟩
      have hlive' : s'.isLive = true := by
        unfold Subscription.isLive
        rw [hplace]
        rfl
      rcases h.kept.stay_of_subscription hsub with ⟨y, hy, hgroup⟩
      rcases h.places t s' place hsub hplace with ⟨before, hholds, hpos⟩
      refine ⟨before, ?_, hpos⟩
      rw [hroom, hchannel, published_publish hg p hy (h.since_of_stay hy), hgroup]
      by_cases hshared : s'.channel = s.channel
      · rw [if_pos hshared, if_pos ((hsound.group_eq hmem' hmem hlive' hlive).mp hshared),
          ← hshared, List.map_append, ← List.append_assoc]
        exact hholds.send _
      · rw [if_neg hshared,
          if_neg fun hsame => hshared ((hsound.group_eq hmem' hmem hlive' hlive).mpr hsame),
          List.append_nil]
        exact hholds

theorem IsLogged.receivedBy (h : c.IsLogged) (tag : Tag) : (c.move (.receive tag)).IsLogged := by
  have hroom : (c.move (.receive tag)).groups.room = c.groups.room :=
    Groups.room_move _ (.receive tag)
  have hchannel : ∀ n, (c.move (.receive tag)).groups.channelAt n = c.groups.channelAt n :=
    Groups.channelAt_receive c.groups tag
  have hothers : ∀ t, t ≠ tag → (c.move (.receive tag)).IsRead t := by
    intro t ht
    apply (h.read t).of_append []
    · exact (List.append_nil _).symm
    · exact stretchesOf_receive_of_ne c ht
    · exact hroom
  have hplaces : ∀ t s place, t ≠ tag → (c.groups.receive tag).2.subscription? t = some s →
      s.place = some place → ∃ before, (c.groups.channelAt s.channel).Holds c.groups.room
        (before ++ (c.published t).map Publication.message) ∧
        place = before.length + (c.move (.receive tag)).reach t := by
    intro t s place ht hs hplace
    rw [Groups.subscription?_receive_of_ne ht] at hs
    unfold reach
    rw [stretchesOf_receive_of_ne c ht]
    exact h.places t s place hs hplace
  cases hg : c.groupOf? tag with
  | none =>
      have hidle : c.groups.receive tag = (none, c.groups) := by
        rcases c.groups.receive_eq tag with ⟨hsame, _⟩ | ⟨s, place, hs, hplace, _⟩
        · exact hsame
        · exfalso
          rcases Groups.mem_of_subscription? hs with ⟨hmem, rfl⟩
          rw [h.kept.groupOf?_tag hmem] at hg
          simp [Subscription.isLive, hplace] at hg
      have hstretch : c.stretch? tag = none := by
        unfold stretch?
        rw [hg]
        rfl
      have hsame : c.move (.receive tag) = c := by
        show { c with
          groups := (c.groups.receive tag).2
          stretches := c.stretches ++ (c.stretch? tag).toList } = c
        rw [hidle, hstretch, Option.toList_none, List.append_nil]
      rw [hsame]
      exact h
  | some g =>
      rcases h.stretch?_eq hg with ⟨s, before, hs, _, hholds, hmoved, _⟩
      refine ⟨h.kept.move _, ?_, ?_, ?_, h.since, ?_⟩
      · intro n
        rw [hroom, hchannel]
        exact h.logs n
      · intro t s' place hs' hplace
        rw [hroom, hchannel]
        by_cases ht : t = tag
        · subst ht
          change (c.groups.receive t).2.subscription? t = some s' at hs'
          rw [hmoved] at hs'
          cases hs'
          cases hplace
          refine ⟨before, hholds, ?_⟩
          rw [h.reach_receive hg]
          exact Nat.add_assoc _ _ _
        · exact hplaces t s' place ht hs' hplace
      · intro t ht
        change c.stay? t = none at ht
        have hne : t ≠ tag := by
          rintro rfl
          unfold groupOf? at hg
          rw [ht] at hg
          cases hg
        rw [stretchesOf_receive_of_ne c hne]
        exact h.unknown t ht
      · intro t
        by_cases ht : t = tag
        · subst ht
          exact h.isRead_receive hg
        · exact hothers t ht

theorem IsLogged.move (h : c.IsLogged) (m : Groups.Move) : (c.move m).IsLogged := by
  cases m with
  | join g => exact h.joined g
  | dropReceiver tag => exact h.droppedReceiver tag
  | dropMember tag => exact h.droppedMember tag
  | publish tag p => exact h.publishedTo tag p
  | receive tag => exact h.receivedBy tag

theorem isLogged_run (capacity : Nat) (ms : List Groups.Move) :
    ((ofCapacity capacity).run ms).IsLogged :=
  run_keeps (fun _ m h => h.move m) (isLogged_ofCapacity capacity) ms

/-!
# Runs
-/

theorem IsKept.publish_fst (h : c.IsKept) (hg : c.groupOf? t = some g) (p : Payload) :
    (c.groups.publish t p).1 = some ((c.members g).filter fun u => u ≠ t).length := by
  rcases h.subscription hg with ⟨s, hs, hlive, hgroup⟩
  have hsound := h.attended.sound
  rcases Groups.mem_of_subscription? hs with ⟨hmem, htag⟩
  have hentry := hsound.entered s hmem hlive
  have hcount : c.groups.receiversOf s.channel = (c.members g).length := by
    rw [← h.members_eq g]
    unfold Groups.members
    rw [← hgroup, hsound.channelOf?_eq hentry]
    rfl
  have hone : t ∈ c.members g := by
    apply List.mem_filter.mpr
    refine ⟨mem_tags.mpr ?_, by simpa using hg⟩
    rw [← h.joined, ← htag]
    exact hsound.given s hmem
  have hothers : ((c.members g).filter fun u => u ≠ t).length = (c.members g).length - 1 := by
    have hnodup : (c.members g).Nodup := c.nodup_tags.filter _
    rw [← List.length_erase_of_mem hone, hnodup.erase_eq_filter]
    congr 1
    apply List.filter_congr
    intro u _
    by_cases hu : u = t <;> simp [hu]
  rcases s with ⟨tag, g', n, place⟩
  rcases Option.isSome_iff_exists.mp hlive with ⟨k, hk⟩
  cases hk
  unfold Groups.publish
  rw [hs]
  show some (c.groups.receiversOf n - 1) = _
  rw [hcount, hothers]

/-- In every run of joins, leaves, publications and calls to receive, on channels of any capacity:
a subscription has gone past what was published in its group since it joined one by one, from the
first on; what it has received is some of what others published there, in that order; it went past
a message of another without receiving it only when at least as many messages had been published
after it as the channel keeps; and each publication tells how many other live members the group
has. -/
theorem no_loss_within_room (capacity : Nat) (ms : List Groups.Move) (t : Tag) :
    let c := (ofCapacity capacity).run ms
    (∃ n ≤ (c.published t).length, (c.stretchesOf t).flatMap Stretch.places = List.range n) ∧
    (c.received t).Sublist (c.publishedByOthers t) ∧
    (∀ x ∈ c.stretchesOf t, ∀ k ∈ x.places, ∀ post, (c.published t)[k]? = some post →
      post.author ≠ t →
      k + 1 = x.stop ∧ x.got = some post.payload ∨
        Channel.room capacity ≤ x.published - (k + 1)) ∧
    (∀ g, c.groupOf? t = some g → ∀ p,
      (c.groups.publish t p).1 = some ((c.members g).filter fun u => u ≠ t).length) := by
  intro c
  have h : c.IsLogged := isLogged_run capacity ms
  have hread := h.read t
  refine ⟨⟨c.reach t, hread.within, hread.onward⟩, ?_, ?_, ?_⟩
  · apply hread.inOrder.trans
    unfold publishedByOthers
    rw [← foreign_map_message]
    exact foreign_sublist ((List.take_sublist _ _).map _)
  · intro x hx k hk post hpost hother
    rcases (hread.spared x hx).right k hk post hpost hother with hgot | hlate
    · exact Or.inl hgot
    · right
      rw [room_run] at hlate
      omega
  · intro g hg p
    exact h.kept.publish_fst hg p

/-- A channel for three keeps four: of five messages, one of them its own, a reader misses only the
first. -/
theorem no_loss_within_room_of_five :
    let ms : List Groups.Move :=
      [.join ⟨"one"⟩, .join ⟨"one"⟩, .join ⟨"two"⟩, .publish ⟨0⟩ (.binary [0]),
        .publish ⟨0⟩ (.binary [1]), .publish ⟨2⟩ (.binary [9]), .publish ⟨1⟩ (.binary [2]),
        .publish ⟨0⟩ (.binary [3]), .publish ⟨0⟩ (.binary [3]), .receive ⟨1⟩, .receive ⟨1⟩,
        .receive ⟨1⟩, .dropReceiver ⟨0⟩]
    let c := (ofCapacity 3).run ms
    c.received ⟨1⟩ = [.binary [1], .binary [3], .binary [3]] ∧
      (c.received ⟨1⟩).Sublist (c.publishedByOthers ⟨1⟩) ∧
      (c.stretchesOf ⟨1⟩).flatMap Stretch.places = [0, 1, 2, 3, 4] ∧
      Channel.room 3 ≤ 5 - (0 + 1) ∧
      c.groupOf? ⟨1⟩ = some ⟨"one"⟩ ∧ (c.groups.publish ⟨1⟩ (.binary [4])).1 = some 0 := by
  intro ms c
  rcases no_loss_within_room 3 ms ⟨1⟩ with ⟨_, hsublist, hmissed, hreached⟩
  have hgroup : c.groupOf? ⟨1⟩ = some ⟨"one"⟩ := by decide +kernel
  refine ⟨by decide +kernel, hsublist, by decide +kernel, ?_, hgroup, ?_⟩
  · have hfirst : (c.stretchesOf ⟨1⟩)[0]? = some ⟨⟨1⟩, 0, 2, some (.binary [1]), 5⟩ := by
      decide +kernel
    have hpost : (c.published ⟨1⟩)[0]? = some ⟨⟨0⟩, ⟨"one"⟩, .binary [0]⟩ := by decide +kernel
    rcases hmissed _ (List.mem_of_getElem? hfirst) 0 (by decide) _ hpost (by decide)
      with ⟨hlast, _⟩ | hroom
    · cases hlast
    · exact hroom
  · exact (hreached ⟨"one"⟩ hgroup (.binary [4])).trans (by decide +kernel)

end Ledger
end Relay
end Parley
