import Mathlib.Data.List.Nodup
import Parley.Proofs.Relay.Channel
import Parley.Relay.Groups

/-!
# Groups hold together

Members of one group who still receive share the channel that the group has, and
no two groups share one. The channel counts them, so it stays as long as any of
them is there, even if leaving is interrupted between its two steps.
-/

namespace Parley
namespace Relay

namespace Subscription

def isLive (s : Subscription) : Bool :=
  s.place.isSome

def receivesFrom (channel : Nat) (s : Subscription) : Bool :=
  s.channel = channel && s.isLive

theorem receivesFrom_of_gone (s : Subscription) (channel : Nat) :
    ({ s with place := none } : Subscription).receivesFrom channel = false :=
  Bool.and_false _

theorem receivesFrom_of_moved {s : Subscription} (h : s.isLive = true) (place channel : Nat) :
    ({ s with place := some place } : Subscription).receivesFrom channel =
      s.receivesFrom channel := by
  rw [receivesFrom, receivesFrom, h]
  rfl

end Subscription

namespace Groups

variable {gs : Groups} {g : GroupName} {tag : Tag}

def channelAt (gs : Groups) (n : Nat) : Channel :=
  gs.channels[n]?.getD Channel.empty

def seat? (gs : Groups) (tag : Tag) : Option GroupName :=
  (gs.subscription? tag).bind fun s => if s.isLive then some s.group else none

structure IsSound (gs : Groups) : Prop where
  tags : (gs.subscriptions.map Subscription.tag).Nodup
  given : ∀ s ∈ gs.subscriptions, s.tag.number < gs.joined
  names : (gs.entries.map Prod.fst).Nodup
  numbers : (gs.entries.map Prod.snd).Nodup
  made : ∀ e ∈ gs.entries, e.2 < gs.channels.length
  kept : ∀ n, (gs.channelAt n).kept.length ≤ (gs.channelAt n).sent
  counted : ∀ n, (gs.channelAt n).receivers = gs.subscriptions.countP (·.receivesFrom n)
  entered : ∀ s ∈ gs.subscriptions, s.isLive = true → (s.group, s.channel) ∈ gs.entries
  behind : ∀ s ∈ gs.subscriptions, ∀ place, s.place = some place →
    place ≤ (gs.channelAt s.channel).sent

theorem isSound_ofCapacity (capacity : Nat) : (ofCapacity capacity).IsSound where
  tags := List.nodup_nil
  given _ hs := by cases hs
  names := List.nodup_nil
  numbers := List.nodup_nil
  made _ he := by cases he
  kept _ := Nat.le_refl 0
  counted _ := rfl
  entered _ hs := by cases hs
  behind _ hs := by cases hs

/-!
# Looking things up
-/

theorem receiversOf_eq (gs : Groups) (n : Nat) : gs.receiversOf n = (gs.channelAt n).receivers := by
  rw [receiversOf, channelAt]
  cases gs.channels[n]? <;> rfl

theorem channelAt_modify (channels : List Channel) (f : Channel → Channel) (n k : Nat)
    (hn : n < channels.length) :
    (channels.modify n f)[k]?.getD Channel.empty =
      if k = n then f (channels[n]?.getD Channel.empty)
      else channels[k]?.getD Channel.empty := by
  rw [List.getElem?_modify]
  by_cases hk : k = n
  · subst hk
    simp [hn]
  · simp [hk, Ne.symm hk]

theorem mem_entries_of_channelOf? {n : Nat} (h : gs.channelOf? g = some n) :
    (g, n) ∈ gs.entries := by
  rcases Option.map_eq_some_iff.mp h with ⟨⟨g', n'⟩, hfind, rfl⟩
  have hname : g' = g := by simpa using List.find?_some hfind
  subst hname
  exact List.mem_of_find?_eq_some hfind

theorem not_mem_names_of_channelOf? (h : gs.channelOf? g = none) :
    g ∉ gs.entries.map Prod.fst := by
  intro hmem
  rcases List.mem_map.mp hmem with ⟨e, he, hname⟩
  have hnone := List.find?_eq_none.mp (Option.map_eq_none_iff.mp h) e he
  simp [hname] at hnone

theorem mem_of_subscription? {s : Subscription} (h : gs.subscription? tag = some s) :
    s ∈ gs.subscriptions ∧ s.tag = tag := by
  refine ⟨List.mem_of_find?_eq_some h, ?_⟩
  simpa using List.find?_some h

theorem seat?_eq_some (h : gs.seat? tag = some g) :
    ∃ s, gs.subscription? tag = some s ∧ s.isLive = true ∧ s.group = g := by
  rcases Option.bind_eq_some_iff.mp h with ⟨s, hs, hseat⟩
  split at hseat
  · rename_i hlive
    cases hseat
    exact ⟨s, hs, hlive, rfl⟩
  · cases hseat

theorem seat?_of_not_isLive {s : Subscription} (h : gs.subscription? tag = some s)
    (hgone : s.isLive = false) : gs.seat? tag = none := by
  rw [seat?, h]
  simp [hgone]

theorem seat?_eq_none_of
    (h : ∀ t g n place, gs.subscription? tag = some ⟨t, g, n, some place⟩ → False) :
    gs.seat? tag = none := by
  cases hs : gs.subscription? tag with
  | none =>
      rw [seat?, hs]
      rfl
  | some s =>
      rcases s with ⟨t, g, n, _ | place⟩
      · exact seat?_of_not_isLive hs rfl
      · exact (h t g n place hs).elim

namespace IsSound

theorem subscription?_eq (h : gs.IsSound) {s : Subscription} (hs : s ∈ gs.subscriptions) :
    gs.subscription? s.tag = some s := by
  cases hfind : gs.subscription? s.tag with
  | none =>
      have hnone := List.find?_eq_none.mp hfind s hs
      simp at hnone
  | some s' =>
      rcases mem_of_subscription? hfind with ⟨hs', htag⟩
      rw [List.inj_on_of_nodup_map h.tags hs' hs htag]

theorem group_eq (h : gs.IsSound) {s s' : Subscription} (hs : s ∈ gs.subscriptions)
    (hs' : s' ∈ gs.subscriptions) (hlive : s.isLive = true) (hlive' : s'.isLive = true) :
    s.channel = s'.channel ↔ s.group = s'.group := by
  have he := h.entered s hs hlive
  have he' := h.entered s' hs' hlive'
  constructor
  · intro hchannel
    exact congrArg Prod.fst (List.inj_on_of_nodup_map h.numbers he he' hchannel)
  · intro hgroup
    exact congrArg Prod.snd (List.inj_on_of_nodup_map h.names he he' hgroup)

theorem channelOf?_eq (h : gs.IsSound) {n : Nat} (hn : (g, n) ∈ gs.entries) :
    gs.channelOf? g = some n := by
  cases hfind : gs.channelOf? g with
  | none =>
      exfalso
      apply not_mem_names_of_channelOf? hfind
      exact List.mem_map.mpr ⟨(g, n), hn, rfl⟩
  | some k =>
      have hk := mem_entries_of_channelOf? hfind
      have hsame := List.inj_on_of_nodup_map h.names hk hn rfl
      cases hsame
      rfl

theorem channel_lt (h : gs.IsSound) {s : Subscription} (hs : s ∈ gs.subscriptions)
    (hlive : s.isLive = true) : s.channel < gs.channels.length :=
  h.made _ (h.entered s hs hlive)

end IsSound

/-!
# Joining
-/

theorem channelAt_withChannel (gs : Groups) (g : GroupName) (n : Nat) :
    (gs.withChannel g).2.channelAt n = gs.channelAt n := by
  rw [withChannel]
  split
  · rfl
  · simp only [channelAt, List.getElem?_append]
    split
    · rfl
    · rename_i hn
      rw [List.getElem?_eq_none (Nat.le_of_not_lt hn)]
      cases n - gs.channels.length <;> rfl

theorem subscriptions_withChannel (gs : Groups) (g : GroupName) :
    (gs.withChannel g).2.subscriptions = gs.subscriptions := by
  rw [withChannel]
  split <;> rfl

theorem mem_entries_withChannel (gs : Groups) (g : GroupName) :
    (g, (gs.withChannel g).1) ∈ (gs.withChannel g).2.entries := by
  rw [withChannel]
  split
  · rename_i n hn
    exact mem_entries_of_channelOf? hn
  · exact List.mem_append_right _ (List.mem_singleton.mpr rfl)

theorem IsSound.withChannel (h : gs.IsSound) (g : GroupName) : (gs.withChannel g).2.IsSound := by
  cases hn : gs.channelOf? g with
  | some n =>
      rw [Groups.withChannel, hn]
      exact h
  | none =>
      have hchannel := channelAt_withChannel gs g
      rw [Groups.withChannel, hn] at hchannel ⊢
      have hlength : gs.channels.length ∉ gs.entries.map Prod.snd := by
        intro hmem
        rcases List.mem_map.mp hmem with ⟨e, he, hnumber⟩
        exact absurd (h.made e he) (by omega)
      refine ⟨h.tags, h.given, ?_, ?_, ?_, ?_, ?_, ?_, ?_⟩
      · rw [List.map_append]
        exact h.names.append (List.nodup_singleton g)
          (by simpa using not_mem_names_of_channelOf? hn)
      · rw [List.map_append]
        exact h.numbers.append (List.nodup_singleton gs.channels.length) (by simpa using hlength)
      · intro e he
        rw [List.length_append, List.length_singleton]
        rcases List.mem_append.mp he with hold | hnew
        · exact Nat.lt_succ_of_lt (h.made e hold)
        · rw [List.mem_singleton.mp hnew]
          exact Nat.lt_succ_self _
      · intro n
        rw [hchannel]
        exact h.kept n
      · intro n
        rw [hchannel]
        exact h.counted n
      · intro s hs hlive
        exact List.mem_append_left _ (h.entered s hs hlive)
      · intro s hs place hplace
        rw [hchannel]
        exact h.behind s hs place hplace

theorem channelAt_subscribe (h : gs.IsSound) {n : Nat} (hn : (g, n) ∈ gs.entries) (k : Nat) :
    (gs.subscribe g n).channelAt k =
      if k = n then (gs.channelAt n).addReceiver else gs.channelAt k :=
  channelAt_modify gs.channels Channel.addReceiver n k (h.made _ hn)

theorem subscriptions_subscribe (gs : Groups) (g : GroupName) (n : Nat) :
    (gs.subscribe g n).subscriptions =
      gs.subscriptions ++ [⟨⟨gs.joined⟩, g, n, some (gs.channelAt n).sent⟩] := by
  rw [subscribe, channelAt]
  cases gs.channels[n]? <;> rfl

theorem IsSound.subscribe (h : gs.IsSound) {n : Nat} (hn : (g, n) ∈ gs.entries) :
    (gs.subscribe g n).IsSound := by
  have hchannel := channelAt_subscribe h hn
  have hsubs := subscriptions_subscribe gs g n
  refine ⟨?_, ?_, h.names, h.numbers, ?_, ?_, ?_, ?_, ?_⟩
  · rw [hsubs, List.map_append]
    apply h.tags.append (List.nodup_singleton _)
    intro t ht hnew
    rcases List.mem_map.mp ht with ⟨s, hs, rfl⟩
    have htag : s.tag = ⟨gs.joined⟩ := by simpa using hnew
    have hgiven := h.given s hs
    rw [htag] at hgiven
    exact absurd hgiven (Nat.lt_irrefl _)
  · intro s hs
    rw [hsubs] at hs
    change s.tag.number < gs.joined + 1
    rcases List.mem_append.mp hs with hold | hnew
    · exact Nat.lt_succ_of_lt (h.given s hold)
    · rw [List.mem_singleton.mp hnew]
      exact Nat.lt_succ_self _
  · intro e he
    change e.2 < (gs.channels.modify n Channel.addReceiver).length
    rw [List.length_modify]
    exact h.made e he
  · intro k
    rw [hchannel]
    split
    · exact h.kept n
    · exact h.kept k
  · intro k
    rw [hchannel, hsubs, List.countP_append, ← h.counted k]
    by_cases hk : k = n
    · subst hk
      simp [Subscription.receivesFrom, Subscription.isLive, Channel.addReceiver]
    · simp [Subscription.receivesFrom, hk, Ne.symm hk]
  · intro s hs hlive
    rw [hsubs] at hs
    rcases List.mem_append.mp hs with hold | hnew
    · exact h.entered s hold hlive
    · rw [List.mem_singleton.mp hnew]
      exact hn
  · intro s hs place hplace
    rw [hsubs] at hs
    have hsent : ∀ k, ((gs.subscribe g n).channelAt k).sent = (gs.channelAt k).sent := by
      intro k
      rw [hchannel]
      split
      · rename_i hk
        subst hk
        rfl
      · rfl
    rw [hsent]
    rcases List.mem_append.mp hs with hold | hnew
    · exact h.behind s hold place hplace
    · rw [List.mem_singleton.mp hnew] at hplace ⊢
      cases hplace
      exact Nat.le_refl _

/-- Joining breaks down for a group that is not there, if its channel would be too large. -/
theorem join?_eq_some_iff {gs : Groups} {g : GroupName} {joined : Tag × Groups} :
    gs.join? g = some joined ↔
      gs.join g = joined ∧ (gs.channelOf? g = none → gs.room ≤ Channel.most) := by
  rw [join?]
  cases hchannel : gs.channelOf? g with
  | some channel => simp
  | none =>
      by_cases hlarge : Channel.most < gs.room
      · simp [hlarge]
      · simp [hlarge, Nat.not_lt.mp hlarge]

theorem IsSound.join (h : gs.IsSound) (g : GroupName) : (gs.join g).2.IsSound :=
  (h.withChannel g).subscribe (mem_entries_withChannel gs g)

/-!
# Leaving
-/

def setPlace (subs : List Subscription) (tag : Tag) (place : Option Nat) : List Subscription :=
  subs.map fun s => if s.tag = tag then { s with place := place } else s

theorem map_tag_setPlace (subs : List Subscription) (tag : Tag) (place : Option Nat) :
    (setPlace subs tag place).map Subscription.tag = subs.map Subscription.tag := by
  rw [setPlace, List.map_map]
  apply List.map_congr_left
  intro s _
  rw [Function.comp_apply]
  split <;> rfl

theorem setPlace_of_not_mem {subs : List Subscription} (h : tag ∉ subs.map Subscription.tag)
    (place : Option Nat) : setPlace subs tag place = subs := by
  rw [setPlace]
  conv => rhs; rw [← List.map_id subs]
  apply List.map_congr_left
  intro s hs
  rw [if_neg fun htag => h (List.mem_map.mpr ⟨s, hs, htag⟩)]
  rfl

theorem mem_setPlace {subs : List Subscription} {place : Option Nat} {s' : Subscription}
    (h : s' ∈ setPlace subs tag place) :
    s' ∈ subs ∧ s'.tag ≠ tag ∨ ∃ s ∈ subs, s.tag = tag ∧ s' = { s with place := place } := by
  rcases List.mem_map.mp h with ⟨s, hs, rfl⟩
  by_cases htag : s.tag = tag
  · rw [if_pos htag]
    exact Or.inr ⟨s, hs, htag, rfl⟩
  · rw [if_neg htag]
    exact Or.inl ⟨hs, htag⟩

theorem countP_setPlace {subs : List Subscription} (htags : (subs.map Subscription.tag).Nodup)
    {s : Subscription} (hs : s ∈ subs) (place : Option Nat) (p : Subscription → Bool) :
    (setPlace subs s.tag place).countP p + (if p s then 1 else 0) =
      subs.countP p + if p { s with place := place } then 1 else 0 := by
  -- By induction on the list: tags differ, so past the one member nothing changes.
  induction subs with
  | nil => cases hs
  | cons a subs ih =>
      rw [List.map_cons, List.nodup_cons] at htags
      rcases List.mem_cons.mp hs with rfl | hrest
      · have hmap : setPlace (s :: subs) s.tag place = { s with place := place } :: subs := by
          rw [setPlace, List.map_cons, if_pos rfl]
          congr 1
          exact setPlace_of_not_mem htags.left place
        rw [hmap, List.countP_cons, List.countP_cons]
        omega
      · have hne : a.tag ≠ s.tag := by
          intro htag
          exact htags.left (htag ▸ List.mem_map_of_mem hrest)
        have hmap : setPlace (a :: subs) s.tag place = a :: setPlace subs s.tag place := by
          rw [setPlace, List.map_cons, if_neg hne]
          rfl
        have hcount := ih htags.right hrest
        rw [hmap, List.countP_cons, List.countP_cons]
        omega

theorem find?_setPlace_of_ne {subs : List Subscription} {t : Tag} (hne : t ≠ tag)
    (place : Option Nat) :
    (setPlace subs tag place).find? (fun s => s.tag = t) = subs.find? fun s => s.tag = t := by
  induction subs with
  | nil => rfl
  | cons a subs ih =>
      change ((if a.tag = tag then { a with place := place } else a) ::
        setPlace subs tag place).find? _ = _
      by_cases htag : a.tag = tag
      · have ht : a.tag ≠ t := fun h => hne (h ▸ htag)
        rw [if_pos htag]
        simp [ht, ih]
      · rw [if_neg htag, List.find?_cons, List.find?_cons, ih]

theorem dropReceiver_eq (gs : Groups) (tag : Tag) :
    gs.dropReceiver tag = gs ∧ gs.seat? tag = none ∨
      ∃ s, gs.subscription? tag = some s ∧ s.isLive = true ∧
        gs.dropReceiver tag =
          { gs with
            channels := gs.channels.modify s.channel Channel.dropReceiver
            subscriptions := setPlace gs.subscriptions tag none } := by
  rw [dropReceiver]
  split
  · rename_i t g n place hs
    exact Or.inr ⟨⟨t, g, n, some place⟩, hs, rfl, rfl⟩
  · rename_i hgone
    exact Or.inl ⟨rfl, seat?_eq_none_of hgone⟩

theorem dropMember_of_gone {s : Subscription} (hs : gs.subscription? tag = some s)
    (hgone : s.isLive = false) :
    gs.dropMember tag =
      { gs with
        entries := gs.entries.filter fun e => !(e.1 = s.group && gs.receiversOf e.2 = 0)
        subscriptions := gs.subscriptions.filter fun s => s.tag ≠ tag
        connections := gs.connections - 1 } := by
  rcases s with ⟨t, g, n, _ | place⟩
  · rw [dropMember, hs]
  · cases hgone

theorem dropMember_of_stayed (h : ∀ s, gs.subscription? tag = some s → s.isLive = true) :
    gs.dropMember tag = gs := by
  rw [dropMember]
  split
  · rename_i t g n hs
    cases h _ hs
  · rfl

theorem dropMember_eq (gs : Groups) (tag : Tag) :
    gs.dropMember tag = gs ∨
      ∃ s, gs.subscription? tag = some s ∧ s.isLive = false ∧
        gs.dropMember tag =
          { gs with
            entries := gs.entries.filter fun e => !(e.1 = s.group && gs.receiversOf e.2 = 0)
            subscriptions := gs.subscriptions.filter fun s => s.tag ≠ tag
            connections := gs.connections - 1 } := by
  by_cases hstayed : ∀ s, gs.subscription? tag = some s → s.isLive = true
  · exact Or.inl (dropMember_of_stayed hstayed)
  · simp only [not_forall, Bool.not_eq_true] at hstayed
    rcases hstayed with ⟨s, hs, hgone⟩
    exact Or.inr ⟨s, hs, hgone, dropMember_of_gone hs hgone⟩

theorem IsSound.of_setPlace (h : gs.IsSound) {s : Subscription} (hs : s ∈ gs.subscriptions)
    (hlive : s.isLive = true) {place : Option Nat} {channels : List Channel}
    (hlength : channels.length = gs.channels.length)
    (hlog : ∀ n, (channels[n]?.getD Channel.empty).kept = (gs.channelAt n).kept ∧
      (channels[n]?.getD Channel.empty).sent = (gs.channelAt n).sent)
    (hcounted : ∀ n, (channels[n]?.getD Channel.empty).receivers =
      (setPlace gs.subscriptions s.tag place).countP (·.receivesFrom n))
    (hbehind : ∀ n, place = some n → n ≤ (gs.channelAt s.channel).sent) :
    { gs with
      channels := channels
      subscriptions := setPlace gs.subscriptions s.tag place : Groups }.IsSound := by
  have hone : ∀ s' ∈ gs.subscriptions, s'.tag = s.tag → s' = s :=
    fun _ hs' htag => List.inj_on_of_nodup_map h.tags hs' hs htag
  refine ⟨?_, ?_, h.names, h.numbers, ?_, ?_, hcounted, ?_, ?_⟩
  · rw [map_tag_setPlace]
    exact h.tags
  · intro s' hs'
    rcases mem_setPlace hs' with ⟨hold, _⟩ | ⟨s₀, hs₀, _, rfl⟩
    · exact h.given s' hold
    · exact h.given s₀ hs₀
  · intro e he
    change e.2 < channels.length
    rw [hlength]
    exact h.made e he
  · intro n
    change (channels[n]?.getD Channel.empty).kept.length ≤ (channels[n]?.getD Channel.empty).sent
    rw [(hlog n).left, (hlog n).right]
    exact h.kept n
  · intro s' hs' hlive'
    rcases mem_setPlace hs' with ⟨hold, _⟩ | ⟨s₀, hs₀, htag, rfl⟩
    · exact h.entered s' hold hlive'
    · rw [hone s₀ hs₀ htag]
      exact h.entered s hs hlive
  · intro s' hs' n hplace
    change n ≤ (channels[s'.channel]?.getD Channel.empty).sent
    rw [(hlog s'.channel).right]
    rcases mem_setPlace hs' with ⟨hold, _⟩ | ⟨s₀, hs₀, htag, rfl⟩
    · exact h.behind s' hold n hplace
    · rw [hone s₀ hs₀ htag]
      exact hbehind n hplace

theorem IsSound.dropReceiver (h : gs.IsSound) (tag : Tag) : (gs.dropReceiver tag).IsSound := by
  rcases gs.dropReceiver_eq tag with ⟨hsame, hnone⟩ | ⟨s, hs, hlive, heq⟩
  · rw [hsame]
    exact h
  · rcases mem_of_subscription? hs with ⟨hmem, rfl⟩
    have hchannel := fun k =>
      channelAt_modify gs.channels Channel.dropReceiver s.channel k (h.channel_lt hmem hlive)
    rw [heq]
    apply h.of_setPlace hmem hlive
    · exact List.length_modify _ _ _
    · intro n
      rw [hchannel]
      split
      · rename_i hn
        subst hn
        exact ⟨rfl, rfl⟩
      · exact ⟨rfl, rfl⟩
    · intro n
      have hcount := countP_setPlace h.tags hmem none (·.receivesFrom n)
      have hgone := s.receivesFrom_of_gone n
      have hold := h.counted n
      rw [hchannel]
      by_cases hn : n = s.channel
      · subst hn
        have hself : s.receivesFrom s.channel = true := by
          simp [Subscription.receivesFrom, hlive]
        rw [hself, hgone, ← hold] at hcount
        rw [if_pos rfl]
        change (gs.channelAt s.channel).receivers - 1 = _
        simp only [if_true, Bool.false_eq_true, if_false] at hcount
        omega
      · have hother : s.receivesFrom n = false := by
          simp [Subscription.receivesFrom, Ne.symm hn]
        rw [hother, hgone, ← hold] at hcount
        rw [if_neg hn]
        exact (Nat.add_right_cancel hcount).symm
    · intro n hn
      cases hn

theorem IsSound.dropMember (h : gs.IsSound) (tag : Tag) : (gs.dropMember tag).IsSound := by
  rcases gs.dropMember_eq tag with hsame | ⟨s, hs, hgone, heq⟩
  · rw [hsame]
    exact h
  · rcases mem_of_subscription? hs with ⟨hmem, rfl⟩
    have hone : ∀ s' ∈ gs.subscriptions, s'.isLive = true → s'.tag ≠ s.tag := by
      intro s' hs' hlive htag
      rw [List.inj_on_of_nodup_map h.tags hs' hmem htag, hgone] at hlive
      cases hlive
    rw [heq]
    refine ⟨?_, ?_, ?_, ?_, ?_, h.kept, ?_, ?_, ?_⟩
    · exact h.tags.sublist (List.filter_sublist.map Subscription.tag)
    · intro s' hs'
      exact h.given s' (List.mem_of_mem_filter hs')
    · exact h.names.sublist (List.filter_sublist.map Prod.fst)
    · exact h.numbers.sublist (List.filter_sublist.map Prod.snd)
    · intro e he
      exact h.made e (List.mem_of_mem_filter he)
    · intro n
      refine (h.counted n).trans ?_
      rw [List.countP_filter]
      apply List.countP_congr
      intro s' hs'
      cases hlive : s'.isLive with
      | true => simp [Subscription.receivesFrom, hone s' hs' hlive]
      | false => simp [Subscription.receivesFrom, hlive]
    · intro s' hs' hlive
      have hold := List.mem_of_mem_filter hs'
      apply List.mem_filter.mpr
      refine ⟨h.entered s' hold hlive, ?_⟩
      have hcount : 0 < gs.subscriptions.countP (·.receivesFrom s'.channel) :=
        List.countP_pos_iff.mpr ⟨s', hold, by simp [Subscription.receivesFrom, hlive]⟩
      rw [← h.counted, ← receiversOf_eq] at hcount
      simp [Nat.ne_of_gt hcount]
    · intro s' hs' place hplace
      exact h.behind s' (List.mem_of_mem_filter hs') place hplace

/-!
# Messages
-/

theorem publish_eq (gs : Groups) (tag : Tag) (p : Payload) :
    (gs.publish tag p).2 = gs ∧ gs.seat? tag = none ∨
      ∃ s, gs.subscription? tag = some s ∧ s.isLive = true ∧
        (gs.publish tag p).2 =
          { gs with
            channels := gs.channels.modify s.channel fun c => c.send gs.room ⟨tag, p⟩ } := by
  rw [publish]
  split
  · rename_i t g n place hs
    exact Or.inr ⟨⟨t, g, n, some place⟩, hs, rfl, rfl⟩
  · rename_i hgone
    exact Or.inl ⟨rfl, seat?_eq_none_of hgone⟩

theorem receive_eq (gs : Groups) (tag : Tag) :
    gs.receive tag = (none, gs) ∧ gs.seat? tag = none ∨
      ∃ s place, gs.subscription? tag = some s ∧ s.place = some place ∧
        gs.receive tag =
          (((gs.channelAt s.channel).receive tag place).1,
            { gs with
              subscriptions := setPlace gs.subscriptions tag
                (some ((gs.channelAt s.channel).receive tag place).2) }) := by
  rw [receive]
  split
  · rename_i t g n place hs
    exact Or.inr ⟨⟨t, g, n, some place⟩, place, hs, rfl, rfl⟩
  · rename_i hgone
    exact Or.inl ⟨rfl, seat?_eq_none_of hgone⟩

theorem IsSound.publish (h : gs.IsSound) (tag : Tag) (p : Payload) :
    (gs.publish tag p).2.IsSound := by
  rcases gs.publish_eq tag p with ⟨hsame, hnone⟩ | ⟨s, hs, hlive, heq⟩
  · rw [hsame]
    exact h
  · rcases mem_of_subscription? hs with ⟨hmem, rfl⟩
    have hchannel := fun k =>
      channelAt_modify gs.channels (fun c => c.send gs.room ⟨s.tag, p⟩) s.channel k
        (h.channel_lt hmem hlive)
    rw [heq]
    refine ⟨h.tags, h.given, h.names, h.numbers, ?_, ?_, ?_, h.entered, ?_⟩
    · intro e he
      change e.2 < (gs.channels.modify s.channel _).length
      rw [List.length_modify]
      exact h.made e he
    · intro n
      rw [channelAt, hchannel]
      split
      · exact Channel.kept_send_le (h.kept s.channel)
      · exact h.kept n
    · intro n
      rw [channelAt, hchannel, ← h.counted n]
      split
      · rename_i hn
        subst hn
        rfl
      · rfl
    · intro s' hs' place hplace
      have hbehind := h.behind s' hs' place hplace
      rw [channelAt, hchannel]
      split
      · rename_i hn
        rw [hn] at hbehind
        exact Nat.le_succ_of_le hbehind
      · exact hbehind

theorem IsSound.receive (h : gs.IsSound) (tag : Tag) : (gs.receive tag).2.IsSound := by
  rcases gs.receive_eq tag with ⟨hsame, hnone⟩ | ⟨s, place, hs, hplace, heq⟩
  · rw [hsame]
    exact h
  · rcases mem_of_subscription? hs with ⟨hmem, rfl⟩
    have hlive : s.isLive = true := by rw [Subscription.isLive, hplace]; rfl
    rw [heq]
    apply h.of_setPlace hmem hlive rfl (fun n => ⟨rfl, rfl⟩)
    · intro n
      have hcount := countP_setPlace h.tags hmem
        (some ((gs.channelAt s.channel).receive s.tag place).2) (·.receivesFrom n)
      rw [Subscription.receivesFrom_of_moved hlive] at hcount
      exact (h.counted n).trans (Nat.add_right_cancel hcount).symm
    · intro n hn
      cases hn
      exact Channel.receive_snd_le (h.kept s.channel) (h.behind s hmem place hplace)

/-!
# Tags given out
-/

theorem joined_withChannel (gs : Groups) (g : GroupName) :
    (gs.withChannel g).2.joined = gs.joined := by
  rw [withChannel]
  split <;> rfl

theorem joined_join (gs : Groups) (g : GroupName) : (gs.join g).2.joined = gs.joined + 1 :=
  congrArg (· + 1) (gs.joined_withChannel g)

theorem joined_dropReceiver (gs : Groups) (tag : Tag) :
    (gs.dropReceiver tag).joined = gs.joined := by
  rcases gs.dropReceiver_eq tag with ⟨hsame, _⟩ | ⟨_, _, _, heq⟩
  · rw [hsame]
  · rw [heq]

theorem joined_dropMember (gs : Groups) (tag : Tag) : (gs.dropMember tag).joined = gs.joined := by
  rcases gs.dropMember_eq tag with hsame | ⟨_, _, _, heq⟩
  · rw [hsame]
  · rw [heq]

theorem joined_publish (gs : Groups) (tag : Tag) (p : Payload) :
    (gs.publish tag p).2.joined = gs.joined := by
  rcases gs.publish_eq tag p with ⟨hsame, _⟩ | ⟨_, _, _, heq⟩
  · rw [hsame]
  · rw [heq]

theorem joined_receive (gs : Groups) (tag : Tag) : (gs.receive tag).2.joined = gs.joined := by
  rcases gs.receive_eq tag with ⟨hsame, _⟩ | ⟨_, _, _, _, heq⟩
  · rw [hsame]
  · rw [heq]

/-!
# Moves
-/

theorem IsSound.move (h : gs.IsSound) (m : Move) : (gs.move m).2.IsSound := by
  cases m with
  | join g => exact h.join g
  | dropReceiver t => exact h.dropReceiver t
  | dropMember t => exact h.dropMember t
  | publish t p => exact h.publish t p
  | receive t => exact h.receive t

theorem room_move (gs : Groups) (m : Move) : (gs.move m).2.room = gs.room := by
  cases m with
  | join g =>
      change (gs.withChannel g).2.room = gs.room
      unfold withChannel
      split <;> rfl
  | dropReceiver t =>
      change (gs.dropReceiver t).room = gs.room
      rcases gs.dropReceiver_eq t with ⟨hsame, _⟩ | ⟨_, _, _, heq⟩
      · rw [hsame]
      · rw [heq]
  | dropMember t =>
      change (gs.dropMember t).room = gs.room
      rcases gs.dropMember_eq t with hsame | ⟨_, _, _, heq⟩
      · rw [hsame]
      · rw [heq]
  | publish t p =>
      change (gs.publish t p).2.room = gs.room
      rcases gs.publish_eq t p with ⟨hsame, _⟩ | ⟨_, _, _, heq⟩
      · rw [hsame]
      · rw [heq]
  | receive t =>
      change (gs.receive t).2.room = gs.room
      rcases gs.receive_eq t with ⟨hsame, _⟩ | ⟨_, _, _, _, heq⟩
      · rw [hsame]
      · rw [heq]

end Groups
end Relay
end Parley
