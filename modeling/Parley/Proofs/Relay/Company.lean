import Parley.Proofs.Relay.Enrolment

/-!
# The company of a group

What the registry holds of one group: its channel, and its members with their places.
Whatever is done in the registry is done to each company by itself, and is nothing to
a company that does not know the member who does it. How tags are called makes no
difference, as long as they stay apart.
-/

namespace Parley
namespace Relay

structure Company where
  channel : Option Channel
  /-- The members with their places, in the order in which they joined. -/
  seats : List (Tag × Option Nat)
  deriving DecidableEq, Repr

namespace Company

/-- The place of a member, which is none once its receiver is gone. -/
def place? (c : Company) (tag : Tag) : Option (Option Nat) :=
  (c.seats.find? fun s => s.1 = tag).map Prod.snd

def setPlace (c : Company) (tag : Tag) (place : Option Nat) : Company :=
  { c with seats := c.seats.map fun s => if s.1 = tag then (s.1, place) else s }

def members (c : Company) : Nat :=
  (c.channel.map (·.receivers)).getD 0

def join (c : Company) (tag : Tag) : Company :=
  let channel := c.channel.getD Channel.empty
  ⟨some channel.addReceiver, c.seats ++ [(tag, some channel.sent)]⟩

def dropReceiver (c : Company) (tag : Tag) : Company :=
  match c.place? tag with
  | some (some _) => { c.setPlace tag none with channel := c.channel.map Channel.dropReceiver }
  | _ => c

def dropMember (c : Company) (tag : Tag) : Company :=
  match c.place? tag with
  | some none =>
    ⟨c.channel.filter fun channel => channel.receivers ≠ 0, c.seats.filter fun s => s.1 ≠ tag⟩
  | _ => c

def publish (c : Company) (room : Nat) (tag : Tag) (p : Payload) : Company :=
  match c.place? tag with
  | some (some _) => { c with channel := c.channel.map fun channel => channel.send room ⟨tag, p⟩ }
  | _ => c

def receive (c : Company) (tag : Tag) : Option Payload × Company :=
  match c.place? tag with
  | some (some place) =>
    let (p, place) := (c.channel.getD Channel.empty).receive tag place
    (p, c.setPlace tag (some place))
  | _ => (none, c)

/-!
# Strangers and those who left
-/

variable {c : Company} {tag : Tag}

theorem dropReceiver_of_gone (h : ∀ n, c.place? tag ≠ some (some n)) : c.dropReceiver tag = c := by
  unfold dropReceiver
  split
  · rename_i n hplace
    exact absurd hplace (h n)
  · rfl

theorem publish_of_gone (h : ∀ n, c.place? tag ≠ some (some n)) (room : Nat) (p : Payload) :
    c.publish room tag p = c := by
  unfold publish
  split
  · rename_i n hplace
    exact absurd hplace (h n)
  · rfl

theorem receive_of_gone (h : ∀ n, c.place? tag ≠ some (some n)) : c.receive tag = (none, c) := by
  unfold receive
  split
  · rename_i n hplace
    exact absurd hplace (h n)
  · rfl

theorem dropMember_of_stayed (h : c.place? tag ≠ some none) : c.dropMember tag = c := by
  unfold dropMember
  split
  · rename_i hplace
    exact absurd hplace h
  · rfl

theorem gone_of_place?_none (h : c.place? tag = none) (n : Nat) : c.place? tag ≠ some (some n) := by
  rw [h]
  intro hplace
  cases hplace

theorem ne_of_place?_none (h : c.place? tag = none) {s : Tag × Option Nat} (hs : s ∈ c.seats) :
    s.1 ≠ tag := by
  have hnone := List.find?_eq_none.mp (Option.map_eq_none_iff.mp h) s hs
  simpa using hnone

theorem setPlace_of_none (h : c.place? tag = none) (place : Option Nat) :
    c.setPlace tag place = c := by
  have hseats : (c.seats.map fun s => if s.1 = tag then (s.1, place) else s) = c.seats := by
    conv => rhs; rw [← List.map_id c.seats]
    apply List.map_congr_left
    intro s hs
    rw [if_neg (ne_of_place?_none h hs)]
    rfl
  unfold setPlace
  rw [hseats]

theorem filter_seats_of_none (h : c.place? tag = none) :
    (c.seats.filter fun s => s.1 ≠ tag) = c.seats := by
  apply List.filter_eq_self.mpr
  intro s hs
  exact decide_eq_true (ne_of_place?_none h hs)

end Company

namespace Groups

variable {gs : Groups} {g : GroupName} {tag : Tag}

def company (gs : Groups) (g : GroupName) : Company :=
  ⟨(gs.channelOf? g).map gs.channelAt,
    (gs.subscriptions.filter fun s => s.group = g).map fun s => (s.tag, s.place)⟩

theorem members_company (gs : Groups) (g : GroupName) : (gs.company g).members = gs.members g := by
  unfold Company.members company members
  cases gs.channelOf? g with
  | none => rfl
  | some n => exact (congrArg (·) (receiversOf_eq gs n)).symm

theorem seats_setPlace (subs : List Subscription) (tag : Tag) (place : Option Nat)
    (g : GroupName) :
    ((setPlace subs tag place).filter fun s => s.group = g).map (fun s => (s.tag, s.place)) =
      ((subs.filter fun s => s.group = g).map fun s => (s.tag, s.place)).map fun s =>
        if s.1 = tag then (s.1, place) else s := by
  unfold setPlace
  rw [List.filter_map, List.map_map, List.map_map]
  have hgroup : ∀ s ∈ subs, ((fun s => decide (s.group = g)) ∘
      fun s : Subscription => if s.tag = tag then { s with place := place } else s) s =
        decide (s.group = g) := by
    intro s _
    rw [Function.comp_apply]
    split <;> rfl
  rw [List.filter_congr hgroup]
  apply List.map_congr_left
  intro s _
  simp only [Function.comp_apply]
  split <;> rfl

theorem channelOf?_withChannel (gs : Groups) (g' g : GroupName) :
    (gs.withChannel g').2.channelOf? g =
      if g' = g then some (gs.withChannel g').1 else gs.channelOf? g := by
  unfold withChannel
  split
  · rename_i n hn
    by_cases hg : g' = g
    · subst hg
      rw [if_pos rfl]
      exact hn
    · rw [if_neg hg]
  · rename_i hnone
    unfold channelOf? at hnone ⊢
    rw [List.find?_append]
    by_cases hg : g' = g
    · subst hg
      rw [Option.map_eq_none_iff.mp hnone]
      simp
    · simp [hg]

theorem channelAt_withChannel_fst (gs : Groups) (g : GroupName) :
    gs.channelAt (gs.withChannel g).1 =
      ((gs.channelOf? g).map gs.channelAt).getD Channel.empty := by
  unfold withChannel
  split
  · rename_i n hn
    rw [hn]
    rfl
  · rename_i hnone
    rw [hnone]
    show gs.channels[gs.channels.length]?.getD Channel.empty = _
    rw [List.getElem?_eq_none (Nat.le_refl _)]
    rfl

namespace IsSound

/-!
# Who is in a company
-/

theorem place?_company (h : gs.IsSound) (g : GroupName) (tag : Tag) :
    (gs.company g).place? tag =
      ((gs.subscription? tag).filter fun s => s.group = g).map Subscription.place := by
  have hfind : (gs.subscriptions.find? fun s => s.group = g && s.tag = tag) =
      (gs.subscription? tag).filter fun s => s.group = g := by
    cases hs : gs.subscription? tag with
    | none =>
        apply List.find?_eq_none.mpr
        intro s hs'
        have htag := List.find?_eq_none.mp hs s hs'
        simp_all
    | some s =>
        rcases mem_of_subscription? hs with ⟨hmem, rfl⟩
        have hone : ∀ s' ∈ gs.subscriptions, s'.tag = s.tag → s' = s :=
          fun _ hs' htag => List.inj_on_of_nodup_map h.tags hs' hmem htag
        by_cases hg : s.group = g
        · rw [Option.filter_some, if_pos (decide_eq_true hg)]
          cases hfound : gs.subscriptions.find? fun s' => s'.group = g && s'.tag = s.tag with
          | none =>
              have hnone := List.find?_eq_none.mp hfound s hmem
              simp [hg] at hnone
          | some s' =>
              have htag := List.find?_some hfound
              rw [hone s' (List.mem_of_find?_eq_some hfound) (by simp_all)]
        · rw [Option.filter_some, if_neg (by simpa using hg)]
          apply List.find?_eq_none.mpr
          intro s' hs' hboth
          have hsame : s'.group = g ∧ s'.tag = s.tag := by simpa using hboth
          rw [hone s' hs' hsame.right] at hsame
          exact hg hsame.left
  unfold Company.place? company
  rw [List.find?_map, List.find?_filter, Option.map_map, ← hfind]
  congr 1
  congr 1
  funext s
  simp

theorem place?_company_of_eq (h : gs.IsSound) {s : Subscription}
    (hs : gs.subscription? tag = some s) (hg : s.group = g) :
    (gs.company g).place? tag = some s.place := by
  rw [h.place?_company, hs, Option.filter_some, if_pos (decide_eq_true hg)]
  rfl

theorem place?_company_of_ne (h : gs.IsSound) {s : Subscription}
    (hs : gs.subscription? tag = some s) (hg : s.group ≠ g) :
    (gs.company g).place? tag = none := by
  rw [h.place?_company, hs, Option.filter_some, if_neg (by simpa using hg)]
  rfl

theorem place?_company_of_seat? (h : gs.IsSound) (hseat : gs.seat? tag = none) (g : GroupName)
    (n : Nat) : (gs.company g).place? tag ≠ some (some n) := by
  intro hplace
  rw [h.place?_company] at hplace
  rcases Option.map_eq_some_iff.mp hplace with ⟨s, hfilter, hn⟩
  have hs := (Option.filter_eq_some_iff.mp hfilter).left
  unfold seat? at hseat
  rw [hs] at hseat
  simp [Subscription.isLive, hn] at hseat

/-!
# What is done to a company
-/

theorem map_channelAt_modify (h : gs.IsSound) {g' : GroupName} {n : Nat}
    (hn : (g', n) ∈ gs.entries) (f : Channel → Channel) (g : GroupName) :
    (gs.channelOf? g).map (fun k => (gs.channels.modify n f)[k]?.getD Channel.empty) =
      if g' = g then ((gs.channelOf? g).map gs.channelAt).map f
      else (gs.channelOf? g).map gs.channelAt := by
  cases hk : gs.channelOf? g with
  | none => split <;> rfl
  | some k =>
      have hentry := mem_entries_of_channelOf? hk
      simp only [Option.map_some]
      rw [channelAt_modify gs.channels f n k (h.made _ hn)]
      by_cases hg : g' = g
      · subst hg
        have hsame := List.inj_on_of_nodup_map h.names hentry hn rfl
        cases hsame
        rw [if_pos rfl, if_pos rfl]
        rfl
      · have hne : k ≠ n := by
          rintro rfl
          have hsame := List.inj_on_of_nodup_map h.numbers hentry hn rfl
          cases hsame
          exact hg rfl
        rw [if_neg hne, if_neg hg]
        rfl

theorem company_join (h : gs.IsSound) (g' g : GroupName) :
    (gs.join g').2.company g =
      if g' = g then (gs.company g).join (gs.join g').1 else gs.company g := by
  have hchannel := (h.withChannel g').map_channelAt_modify (mem_entries_withChannel gs g')
    Channel.addReceiver g
  rw [channelOf?_withChannel, funext (channelAt_withChannel gs g')] at hchannel
  have hsubs := subscriptions_subscribe (gs.withChannel g').2 g' (gs.withChannel g').1
  rw [subscriptions_withChannel, channelAt_withChannel, joined_withChannel] at hsubs
  unfold company
  show Company.mk (((gs.withChannel g').2.channelOf? g).map
    fun k => ((gs.withChannel g').2.channels.modify (gs.withChannel g').1
      Channel.addReceiver)[k]?.getD Channel.empty)
    ((((gs.withChannel g').2.subscribe g' (gs.withChannel g').1).subscriptions.filter _).map _) = _
  rw [channelOf?_withChannel, hchannel, hsubs, List.filter_append, List.map_append]
  by_cases hg : g' = g
  · subst hg
    rw [if_pos rfl, if_pos rfl, if_pos rfl]
    unfold Company.join
    rw [← channelAt_withChannel_fst]
    simp
    rfl
  · rw [if_neg hg, if_neg hg, if_neg hg]
    simp [hg]

theorem company_dropReceiver (h : gs.IsSound) (tag : Tag) (g : GroupName) :
    (gs.dropReceiver tag).company g = (gs.company g).dropReceiver tag := by
  rcases gs.dropReceiver_eq tag with ⟨hsame, hnone⟩ | ⟨s, hs, hlive, heq⟩
  · rw [hsame, Company.dropReceiver_of_gone (h.place?_company_of_seat? hnone g)]
  · rcases mem_of_subscription? hs with ⟨hmem, rfl⟩
    have hchannel := h.map_channelAt_modify (h.entered s hmem hlive) Channel.dropReceiver g
    have hcompany : (gs.dropReceiver s.tag).company g =
        { (gs.company g).setPlace s.tag none with
          channel :=
            if s.group = g then (gs.company g).channel.map Channel.dropReceiver
            else (gs.company g).channel } := by
      rw [heq]
      unfold Company.setPlace company
      rw [← seats_setPlace]
      exact congrArg (Company.mk · _) hchannel
    rw [hcompany]
    by_cases hg : s.group = g
    · rcases Option.isSome_iff_exists.mp hlive with ⟨n, hn⟩
      unfold Company.dropReceiver
      rw [h.place?_company_of_eq hs hg, hn, if_pos hg]
    · have hstranger := h.place?_company_of_ne hs hg
      rw [if_neg hg, Company.setPlace_of_none hstranger,
        Company.dropReceiver_of_gone (Company.gone_of_place?_none hstranger)]

theorem channelOf?_eq_some_iff (h : gs.IsSound) {n : Nat} :
    gs.channelOf? g = some n ↔ (g, n) ∈ gs.entries :=
  ⟨mem_entries_of_channelOf?, h.channelOf?_eq⟩

theorem channelOf?_dropMember (h : gs.IsSound) {s : Subscription}
    (hs : gs.subscription? tag = some s) (hgone : s.isLive = false) (g : GroupName) :
    (gs.dropMember tag).channelOf? g =
      (gs.channelOf? g).filter fun n => !(g = s.group && gs.receiversOf n = 0) := by
  have hentries : (gs.dropMember tag).entries =
      gs.entries.filter fun e => !(e.1 = s.group && gs.receiversOf e.2 = 0) := by
    rw [dropMember_of_gone hs hgone]
  apply Option.ext
  intro n
  rw [(h.dropMember tag).channelOf?_eq_some_iff, hentries, List.mem_filter,
    Option.filter_eq_some_iff, h.channelOf?_eq_some_iff]

theorem channel_company_dropMember (h : gs.IsSound) {s : Subscription}
    (hs : gs.subscription? tag = some s) (hgone : s.isLive = false) (g : GroupName) :
    ((gs.dropMember tag).channelOf? g).map gs.channelAt =
      if s.group = g then (gs.company g).channel.filter fun channel => channel.receivers ≠ 0
      else (gs.company g).channel := by
  rw [h.channelOf?_dropMember hs hgone]
  unfold company
  cases gs.channelOf? g with
  | none => split <;> rfl
  | some n =>
      rw [Option.filter_some, receiversOf_eq, Option.map_some, Option.filter_some]
      by_cases hg : s.group = g
      · by_cases hreceivers : (gs.channelAt n).receivers = 0
        · simp [hg, hreceivers]
        · simp [hg, hreceivers]
      · simp [hg, Ne.symm hg]

theorem seats_filter (subs : List Subscription) (tag : Tag) (g : GroupName) :
    ((subs.filter fun s => s.tag ≠ tag).filter fun s => s.group = g).map
        (fun s => (s.tag, s.place)) =
      ((subs.filter fun s => s.group = g).map fun s => (s.tag, s.place)).filter fun s =>
        s.1 ≠ tag := by
  rw [List.filter_map, List.filter_filter, List.filter_filter]
  congr 1
  apply List.filter_congr
  intro s _
  exact Bool.and_comm _ _

theorem company_dropMember (h : gs.IsSound) (tag : Tag) (g : GroupName) :
    (gs.dropMember tag).company g = (gs.company g).dropMember tag := by
  by_cases hstayed : ∀ s, gs.subscription? tag = some s → s.isLive = true
  · rw [dropMember_of_stayed hstayed, Company.dropMember_of_stayed]
    intro hplace
    rw [h.place?_company] at hplace
    rcases Option.map_eq_some_iff.mp hplace with ⟨s, hfilter, hnone⟩
    have hlive := hstayed s (Option.filter_eq_some_iff.mp hfilter).left
    unfold Subscription.isLive at hlive
    rw [hnone] at hlive
    cases hlive
  · simp only [not_forall, Bool.not_eq_true] at hstayed
    rcases hstayed with ⟨s, hs, hgone⟩
    rcases mem_of_subscription? hs with ⟨hmem, rfl⟩
    have hcompany : (gs.dropMember s.tag).company g =
        ⟨if s.group = g then (gs.company g).channel.filter fun channel => channel.receivers ≠ 0
          else (gs.company g).channel,
          (gs.company g).seats.filter fun s' => s'.1 ≠ s.tag⟩ := by
      rw [← h.channel_company_dropMember hs hgone]
      unfold company
      rw [← seats_filter, dropMember_of_gone hs hgone]
      rfl
    rw [hcompany]
    by_cases hg : s.group = g
    · have hplace : s.place = none := by
        unfold Subscription.isLive at hgone
        simpa using hgone
      unfold Company.dropMember
      rw [h.place?_company_of_eq hs hg, hplace, if_pos hg]
    · have hstranger := h.place?_company_of_ne hs hg
      rw [if_neg hg, Company.filter_seats_of_none hstranger, Company.dropMember_of_stayed]
      rw [hstranger]
      intro hplace
      cases hplace

theorem company_publish (h : gs.IsSound) (tag : Tag) (p : Payload) (g : GroupName) :
    (gs.publish tag p).2.company g = (gs.company g).publish gs.room tag p := by
  rcases gs.publish_eq tag p with ⟨hsame, hnone⟩ | ⟨s, hs, hlive, heq⟩
  · rw [hsame, Company.publish_of_gone (h.place?_company_of_seat? hnone g)]
  · rcases mem_of_subscription? hs with ⟨hmem, rfl⟩
    have hchannel := h.map_channelAt_modify (h.entered s hmem hlive)
      (fun channel => channel.send gs.room ⟨s.tag, p⟩) g
    have hcompany : (gs.publish s.tag p).2.company g =
        { gs.company g with
          channel :=
            if s.group = g then
              (gs.company g).channel.map fun channel => channel.send gs.room ⟨s.tag, p⟩
            else (gs.company g).channel } := by
      rw [heq]
      exact congrArg (Company.mk · _) hchannel
    rw [hcompany]
    by_cases hg : s.group = g
    · rcases Option.isSome_iff_exists.mp hlive with ⟨n, hn⟩
      unfold Company.publish
      rw [h.place?_company_of_eq hs hg, hn, if_pos hg]
    · rw [if_neg hg, Company.publish_of_gone
        (Company.gone_of_place?_none (h.place?_company_of_ne hs hg))]

theorem company_receive (h : gs.IsSound) (tag : Tag) (g : GroupName) :
    (gs.receive tag).2.company g = ((gs.company g).receive tag).2 ∧
      ((∀ s, gs.subscription? tag = some s → s.group = g) →
        (gs.receive tag).1 = ((gs.company g).receive tag).1) := by
  rcases gs.receive_eq tag with ⟨hsame, hnone⟩ | ⟨s, place, hs, hplace, heq⟩
  · rw [hsame, Company.receive_of_gone (h.place?_company_of_seat? hnone g)]
    exact ⟨rfl, fun _ => rfl⟩
  · rcases mem_of_subscription? hs with ⟨hmem, rfl⟩
    have hlive : s.isLive = true := by
      rw [Subscription.isLive, hplace]
      rfl
    have hcompany : (gs.receive s.tag).2.company g = (gs.company g).setPlace s.tag
        (some ((gs.channelAt s.channel).receive s.tag place).2) := by
      rw [heq]
      unfold Company.setPlace company
      rw [← seats_setPlace]
      rfl
    rw [hcompany]
    by_cases hg : s.group = g
    · have hchannel : (gs.company g).channel = some (gs.channelAt s.channel) := by
        have hentry := h.entered s hmem hlive
        rw [hg] at hentry
        unfold company
        rw [h.channelOf?_eq hentry]
        rfl
      unfold Company.receive
      rw [h.place?_company_of_eq hs hg, hplace, hchannel, heq]
      exact ⟨rfl, fun _ => rfl⟩
    · have hstranger := h.place?_company_of_ne hs hg
      rw [Company.setPlace_of_none hstranger,
        Company.receive_of_gone (Company.gone_of_place?_none hstranger)]
      exact ⟨rfl, fun hall => absurd (hall s hs) hg⟩

end IsSound

namespace Move

def arrival? : Move → Option GroupName
  | .join g => some g
  | _ => none

def tag? : Move → Option Tag
  | .join _ => none
  | .dropReceiver tag | .dropMember tag | .publish tag _ | .receive tag => some tag

end Move

theorem joined_move (gs : Groups) (m : Move) :
    (gs.move m).2.joined = gs.joined + m.arrival?.toList.length := by
  cases m with
  | join g => exact joined_join gs g
  | dropReceiver tag => exact joined_dropReceiver gs tag
  | dropMember tag => exact joined_dropMember gs tag
  | publish tag p => exact joined_publish gs tag p
  | receive tag => exact joined_receive gs tag

end Groups

/-- What a move of the registry is to the company of one group. -/
def Company.move (c : Company) (room : Nat) (next : Tag) (g : GroupName) : Groups.Move → Company
  | .join g' => if g' = g then c.join next else c
  | .dropReceiver tag => c.dropReceiver tag
  | .dropMember tag => c.dropMember tag
  | .publish tag p => c.publish room tag p
  | .receive tag => (c.receive tag).2

theorem Company.move_of_stranger {c : Company} {m : Groups.Move} {g : GroupName}
    (hjoin : m.arrival? ≠ some g) (htag : ∀ tag ∈ m.tag?, c.place? tag = none) (room : Nat)
    (next : Tag) : c.move room next g m = c := by
  cases m with
  | join g' => exact if_neg fun hg => hjoin (congrArg some hg)
  | dropReceiver tag => exact dropReceiver_of_gone (gone_of_place?_none (htag tag rfl))
  | dropMember tag =>
      apply dropMember_of_stayed
      rw [htag tag rfl]
      intro hplace
      cases hplace
  | publish tag p => exact publish_of_gone (gone_of_place?_none (htag tag rfl)) room p
  | receive tag =>
      exact congrArg Prod.snd (receive_of_gone (gone_of_place?_none (htag tag rfl)))

theorem Groups.IsSound.company_move {gs : Groups} (h : gs.IsSound) (m : Move) (g : GroupName) :
    (gs.move m).2.company g = (gs.company g).move gs.room ⟨gs.joined⟩ g m := by
  cases m with
  | join g' => exact h.company_join g' g
  | dropReceiver tag => exact h.company_dropReceiver tag g
  | dropMember tag => exact h.company_dropMember tag g
  | publish tag p => exact h.company_publish tag p g
  | receive tag => exact (h.company_receive tag g).left

end Relay
end Parley
