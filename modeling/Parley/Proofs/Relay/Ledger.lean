import Parley.Proofs.Relay.Enrolment

/-!
# A ledger of the groups

Groups change move by move, and it is put down who came to which group and how far
each has got in leaving, what was published where, and what each call to receive
went past. The stays and the publications are read off the moves alone.
-/

namespace Parley
namespace Relay

inductive Presence where
  | here
  /-- Its receiver is gone. -/
  | halfway
  | gone
  deriving DecidableEq

structure Stay where
  group : GroupName
  /-- How many messages had been published anywhere when it began. -/
  since : Nat
  presence : Presence
  deriving DecidableEq

structure Publication where
  author : Tag
  group : GroupName
  payload : Payload
  deriving DecidableEq

/-- What one call to receive went past, as places in what was published for the reader. -/
structure Stretch where
  reader : Tag
  start : Nat
  stop : Nat
  got : Option Payload
  /-- How much had been published for the reader by then. -/
  published : Nat
  deriving DecidableEq

structure Ledger where
  groups : Groups
  /-- The stays of all members there ever were, numbered by their tags. -/
  stays : List Stay
  publications : List Publication
  stretches : List Stretch

namespace Stay

def dropReceiver (y : Stay) : Stay :=
  if y.presence = .here then { y with presence := .halfway } else y

def dropMember (y : Stay) : Stay :=
  if y.presence = .halfway then { y with presence := .gone } else y

def enrolment? (y : Stay) : Option (GroupName × Bool) :=
  match y.presence with
  | .here => some (y.group, true)
  | .halfway => some (y.group, false)
  | .gone => none

theorem enrolment?_dropReceiver (y : Stay) :
    y.dropReceiver.enrolment? = y.enrolment?.map fun e => (e.1, false) := by
  rcases y with ⟨g, since, _ | _ | _⟩ <;> rfl

theorem enrolment?_dropMember (y : Stay) :
    y.dropMember.enrolment? = y.enrolment?.filter fun e => e.2 := by
  rcases y with ⟨g, since, _ | _ | _⟩ <;> rfl

theorem group_dropReceiver (y : Stay) : y.dropReceiver.group = y.group := by
  unfold dropReceiver
  split <;> rfl

theorem since_dropReceiver (y : Stay) : y.dropReceiver.since = y.since := by
  unfold dropReceiver
  split <;> rfl

theorem group_dropMember (y : Stay) : y.dropMember.group = y.group := by
  unfold dropMember
  split <;> rfl

theorem since_dropMember (y : Stay) : y.dropMember.since = y.since := by
  unfold dropMember
  split <;> rfl

end Stay

namespace Stretch

def places (x : Stretch) : List Nat :=
  List.range' x.start (x.stop - x.start)

end Stretch

namespace Groups

def ahead (gs : Groups) (t : Tag) : Nat :=
  match gs.subscription? t with
  | some ⟨_, _, channel, some place⟩ => (gs.channelAt channel).sent - place
  | _ => 0

theorem IsAttended.move {gs : Groups} (h : gs.IsAttended) (m : Move) :
    (gs.move m).2.IsAttended := by
  cases m with
  | join g => exact h.join g
  | dropReceiver t => exact h.dropReceiver t
  | dropMember t => exact h.dropMember t
  | publish t p => exact h.publish t p
  | receive t => exact h.receive t

end Groups

namespace Ledger

def ofCapacity (capacity : Nat) : Ledger :=
  ⟨Groups.ofCapacity capacity, [], [], []⟩

def stay? (c : Ledger) (t : Tag) : Option Stay :=
  c.stays[t.number]?

def groupOf? (c : Ledger) (t : Tag) : Option GroupName :=
  (c.stay? t).bind fun y => if y.presence = .here then some y.group else none

/-- What was published in the group of a subscription since it joined. -/
def published (c : Ledger) (t : Tag) : List Publication :=
  match c.stay? t with
  | none => []
  | some y => (c.publications.drop y.since).filter fun x => x.group = y.group

def stretch? (c : Ledger) (t : Tag) : Option Stretch :=
  if (c.groupOf? t).isSome then
    some
      { reader := t
        start := (c.published t).length - c.groups.ahead t
        stop := (c.published t).length - (c.groups.receive t).2.ahead t
        got := (c.groups.receive t).1
        published := (c.published t).length }
  else none

def move (c : Ledger) : Groups.Move → Ledger
  | .join g =>
    { c with
      groups := (c.groups.join g).2
      stays := c.stays ++ [⟨g, c.publications.length, .here⟩] }
  | .dropReceiver t =>
    { c with
      groups := c.groups.dropReceiver t
      stays := c.stays.modify t.number Stay.dropReceiver }
  | .dropMember t =>
    { c with
      groups := c.groups.dropMember t
      stays := c.stays.modify t.number Stay.dropMember }
  | .publish t p =>
    { c with
      groups := (c.groups.publish t p).2
      publications := c.publications ++ ((c.groupOf? t).map fun g => ⟨t, g, p⟩).toList }
  | .receive t =>
    { c with
      groups := (c.groups.receive t).2
      stretches := c.stretches ++ (c.stretch? t).toList }

def run (c : Ledger) (ms : List Groups.Move) : Ledger :=
  ms.foldl move c

theorem run_keeps {P : Ledger → Prop} (hmove : ∀ c m, P c → P (c.move m)) {c : Ledger} (h : P c)
    (ms : List Groups.Move) : P (c.run ms) := by
  induction ms generalizing c with
  | nil => exact h
  | cons m ms ih => exact ih (hmove c m h)

theorem groups_move (c : Ledger) (m : Groups.Move) : (c.move m).groups = (c.groups.move m).2 := by
  cases m <;> rfl

theorem groups_run (c : Ledger) (ms : List Groups.Move) :
    (c.run ms).groups = (c.groups.run ms).2 := by
  induction ms generalizing c with
  | nil => rfl
  | cons m ms ih =>
      show ((c.move m).run ms).groups = ((c.groups.move m).2.run ms).2
      rw [ih, groups_move]

/-!
# Who is there according to the record
-/

def tags (c : Ledger) : List Tag :=
  (List.range c.stays.length).map Tag.mk

def members (c : Ledger) (g : GroupName) : List Tag :=
  c.tags.filter fun t => c.groupOf? t = some g

def present (c : Ledger) : List Tag :=
  c.tags.filter fun t => (c.groupOf? t).isSome

def IsHalfway (c : Ledger) (t : Tag) : Prop :=
  (c.stay? t).map Stay.presence = some .halfway

/-- No leave is half done. -/
def IsSettled (c : Ledger) : Prop :=
  ∀ t, ¬ c.IsHalfway t

theorem nodup_tags (c : Ledger) : c.tags.Nodup := by
  apply List.Nodup.map
  · intro n k h
    exact congrArg Tag.number h
  · exact List.nodup_range

theorem mem_tags {c : Ledger} {t : Tag} : t ∈ c.tags ↔ t.number < c.stays.length := by
  unfold tags
  constructor
  · intro h
    rcases List.mem_map.mp h with ⟨n, hn, rfl⟩
    exact List.mem_range.mp hn
  · intro h
    exact List.mem_map.mpr ⟨t.number, List.mem_range.mpr h, rfl⟩

/-!
# The record agrees with the groups
-/

variable {c : Ledger} {g : GroupName} {t : Tag}

structure IsKept (c : Ledger) : Prop where
  attended : c.groups.IsAttended
  joined : c.groups.joined = c.stays.length
  listed : ∀ t, c.groups.enrolment? t = (c.stay? t).bind Stay.enrolment?

theorem isKept_ofCapacity (capacity : Nat) : (ofCapacity capacity).IsKept where
  attended := Groups.isAttended_ofCapacity capacity
  joined := rfl
  listed _ := rfl

theorem stay?_join (c : Ledger) (g : GroupName) (t : Tag) :
    (c.move (.join g)).stay? t =
      if t.number = c.stays.length then some ⟨g, c.publications.length, .here⟩ else c.stay? t := by
  show (c.stays ++ [_])[t.number]? = _
  unfold stay?
  by_cases ht : t.number = c.stays.length
  · rw [if_pos ht, ht]
    exact List.getElem?_concat_length
  · rw [if_neg ht, List.getElem?_append]
    split
    · rfl
    · rename_i hge
      have hlt : c.stays.length < t.number := by omega
      rw [List.getElem?_eq_none (Nat.le_of_lt hlt)]
      apply List.getElem?_eq_none
      rw [List.length_singleton]
      omega

theorem stay?_modify (c : Ledger) (f : Stay → Stay) (tag t : Tag) :
    (c.stays.modify tag.number f)[t.number]? =
      if t = tag then (c.stay? t).map f else c.stay? t := by
  rw [List.getElem?_modify]
  unfold stay?
  by_cases ht : t = tag
  · subst ht
    rw [if_pos rfl]
    cases c.stays[t.number]? <;> simp
  · have hne : tag.number ≠ t.number := fun h => ht (congrArg Tag.mk h.symm)
    rw [if_neg ht]
    simp [hne]

theorem IsKept.move (h : c.IsKept) (m : Groups.Move) : (c.move m).IsKept := by
  have hattended : (c.move m).groups.IsAttended := by
    rw [groups_move]
    exact h.attended.move m
  cases m with
  | join g =>
      refine ⟨hattended, ?_, ?_⟩
      · show (c.groups.join g).2.joined = (c.stays ++ [_]).length
        rw [Groups.joined_join, h.joined, List.length_append, List.length_singleton]
      · intro t
        have htag : t = (c.groups.join g).1 ↔ t.number = c.stays.length := by
          rw [← h.joined]
          exact ⟨fun ht => congrArg Tag.number ht, fun ht => congrArg Tag.mk ht⟩
        rw [stay?_join]
        show (c.groups.join g).2.enrolment? t = _
        rw [Groups.enrolment?_join h.attended.sound]
        by_cases ht : t.number = c.stays.length
        · rw [if_pos ht, if_pos (htag.mpr ht)]
          rfl
        · rw [if_neg ht, if_neg (ht ∘ htag.mp)]
          exact h.listed t
  | dropReceiver tag =>
      refine ⟨hattended, ?_, ?_⟩
      · show (c.groups.dropReceiver tag).joined = (c.stays.modify _ _).length
        rw [Groups.joined_dropReceiver, List.length_modify]
        exact h.joined
      · intro t
        show (c.groups.dropReceiver tag).enrolment? t =
          ((c.stays.modify tag.number Stay.dropReceiver)[t.number]?).bind Stay.enrolment?
        rw [Groups.enrolment?_dropReceiver, stay?_modify, h.listed t]
        split
        · cases c.stay? t with
          | none => rfl
          | some y => exact y.enrolment?_dropReceiver.symm
        · rfl
  | dropMember tag =>
      refine ⟨hattended, ?_, ?_⟩
      · show (c.groups.dropMember tag).joined = (c.stays.modify _ _).length
        rw [Groups.joined_dropMember, List.length_modify]
        exact h.joined
      · intro t
        show (c.groups.dropMember tag).enrolment? t =
          ((c.stays.modify tag.number Stay.dropMember)[t.number]?).bind Stay.enrolment?
        rw [Groups.enrolment?_dropMember, stay?_modify, h.listed t]
        split
        · cases c.stay? t with
          | none => rfl
          | some y => exact y.enrolment?_dropMember.symm
        · rfl
  | publish tag p =>
      refine ⟨hattended, ?_, ?_⟩
      · exact (Groups.joined_publish c.groups tag p).trans h.joined
      · intro t
        exact (Groups.enrolment?_publish c.groups tag t p).trans (h.listed t)
  | receive tag =>
      refine ⟨hattended, ?_, ?_⟩
      · exact (Groups.joined_receive c.groups tag).trans h.joined
      · intro t
        exact (Groups.enrolment?_receive h.attended.sound tag t).trans (h.listed t)

theorem isKept_run (capacity : Nat) (ms : List Groups.Move) :
    ((ofCapacity capacity).run ms).IsKept :=
  run_keeps (fun _ m h => h.move m) (isKept_ofCapacity capacity) ms

theorem IsKept.groupOf?_eq_some_iff (h : c.IsKept) :
    c.groupOf? t = some g ↔ c.groups.enrolment? t = some (g, true) := by
  unfold groupOf?
  rw [h.listed t]
  rcases c.stay? t with _ | ⟨g', since, _ | _ | _⟩ <;> simp [Stay.enrolment?]

theorem IsKept.isHalfway_iff (h : c.IsKept) :
    c.IsHalfway t ↔ ∃ g, c.groups.enrolment? t = some (g, false) := by
  unfold IsHalfway
  rw [h.listed t]
  rcases c.stay? t with _ | ⟨g', since, _ | _ | _⟩ <;> simp [Stay.enrolment?]

theorem IsKept.seat?_eq (h : c.IsKept) (t : Tag) : c.groups.seat? t = c.groupOf? t := by
  rw [Groups.seat?_eq_enrolment?, h.listed t]
  unfold groupOf?
  rcases c.stay? t with _ | ⟨g', since, _ | _ | _⟩ <;> rfl

theorem IsKept.subscription (h : c.IsKept) (hg : c.groupOf? t = some g) :
    ∃ s, c.groups.subscription? t = some s ∧ s.isLive = true ∧ s.group = g := by
  rw [h.groupOf?_eq_some_iff] at hg
  rcases Groups.enrolment?_eq_some hg with ⟨s, hs, hgroup, hlive⟩
  exact ⟨s, hs, hlive, hgroup⟩

theorem IsKept.countP_subscriptions (h : c.IsKept) {p : Subscription → Bool} {q : Tag → Bool}
    (hpq : ∀ s ∈ c.groups.subscriptions, p s = q s.tag)
    (hq : ∀ t, q t = true → (c.groups.subscription? t).isSome) :
    c.groups.subscriptions.countP p = (c.tags.filter q).length := by
  have hsound := h.attended.sound
  have hnodup : ((c.groups.subscriptions.filter p).map Subscription.tag).Nodup :=
    hsound.tags.sublist (List.filter_sublist.map Subscription.tag)
  have hperm : ((c.groups.subscriptions.filter p).map Subscription.tag).Perm (c.tags.filter q) := by
    apply (List.perm_ext_iff_of_nodup hnodup (c.nodup_tags.filter q)).mpr
    intro t
    constructor
    · intro ht
      rcases List.mem_map.mp ht with ⟨s, hs, rfl⟩
      rcases List.mem_filter.mp hs with ⟨hmem, hp⟩
      apply List.mem_filter.mpr
      refine ⟨mem_tags.mpr ?_, ?_⟩
      · rw [← h.joined]
        exact hsound.given s hmem
      · rw [← hpq s hmem]
        exact hp
    · intro ht
      rcases List.mem_filter.mp ht with ⟨_, hqt⟩
      rcases Option.isSome_iff_exists.mp (hq t hqt) with ⟨s, hs⟩
      rcases Groups.mem_of_subscription? hs with ⟨hmem, rfl⟩
      apply List.mem_map_of_mem
      apply List.mem_filter.mpr
      exact ⟨hmem, (hpq s hmem).trans hqt⟩
  rw [List.countP_eq_length_filter, ← hperm.length_eq, List.length_map]

theorem IsKept.groupOf?_tag (h : c.IsKept) {s : Subscription} (hs : s ∈ c.groups.subscriptions) :
    c.groupOf? s.tag = if s.isLive then some s.group else none := by
  rw [← h.seat?_eq, Groups.seat?_eq_enrolment?, h.attended.sound.enrolment?_eq hs]
  rfl

end Ledger
end Relay
end Parley
