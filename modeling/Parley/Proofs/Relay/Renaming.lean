import Parley.Proofs.Relay.Company

/-!
# Other names for the tags

How tags are called makes no difference, as long as they stay apart: a group in one
registry goes on just like its mirror image, with other tags, in another registry, and
moves that are made in other groups leave it as it is.
-/

namespace Parley
namespace Relay

def Message.rename (f : Tag → Tag) (m : Message) : Message :=
  { m with origin := f m.origin }

def Groups.Move.rename (f : Tag → Tag) : Groups.Move → Groups.Move
  | .join g => .join g
  | .dropReceiver tag => .dropReceiver (f tag)
  | .dropMember tag => .dropMember (f tag)
  | .publish tag p => .publish (f tag) p
  | .receive tag => .receive (f tag)

namespace Channel

variable {f : Tag → Tag}

def rename (f : Tag → Tag) (c : Channel) : Channel :=
  { c with kept := c.kept.map (Message.rename f) }

theorem rename_send (f : Tag → Tag) (room : Nat) (c : Channel) (m : Message) :
    (c.send room m).rename f = (c.rename f).send room (m.rename f) := by
  unfold send rename
  simp

theorem firstFrom_map (hf : Function.Injective f) (me : Tag) (ms : List Message) :
    firstFrom (f me) (ms.map (Message.rename f)) = firstFrom me ms := by
  induction ms with
  | nil => rfl
  | cons m ms ih =>
      unfold firstFrom
      show (if f m.origin = f me then _ else _) = _
      by_cases hm : m.origin = me
      · rw [if_pos hm, if_pos (congrArg f hm), ih]
      · rw [if_neg hm, if_neg fun heq => hm (hf heq)]
        rfl

theorem receive_rename (hf : Function.Injective f) (c : Channel) (me : Tag) (place : Nat) :
    (c.rename f).receive (f me) place = c.receive me place := by
  have holdest : (c.rename f).oldest = c.oldest := by
    unfold oldest rename
    simp
  have hunread : (c.rename f).unread place = (c.unread place).map (Message.rename f) := by
    unfold unread
    rw [holdest]
    exact List.map_drop.symm
  unfold receive
  rw [holdest, hunread, firstFrom_map hf]

end Channel

namespace Company

variable {f : Tag → Tag}

def rename (f : Tag → Tag) (c : Company) : Company :=
  ⟨c.channel.map (Channel.rename f), c.seats.map fun s => (f s.1, s.2)⟩

theorem members_rename (f : Tag → Tag) (c : Company) : (c.rename f).members = c.members := by
  unfold members rename
  cases c.channel <;> rfl

theorem place?_rename (hf : Function.Injective f) (c : Company) (tag : Tag) :
    (c.rename f).place? (f tag) = c.place? tag := by
  unfold place? rename
  rw [List.find?_map, Option.map_map]
  have hsame : ((fun s : Tag × Option Nat => decide (s.1 = f tag)) ∘ fun s => (f s.1, s.2)) =
      fun s : Tag × Option Nat => decide (s.1 = tag) := by
    funext s
    exact decide_eq_decide.mpr hf.eq_iff
  rw [hsame]
  rfl

theorem channel_rename_getD (f : Tag → Tag) (c : Company) :
    (c.rename f).channel.getD Channel.empty = (c.channel.getD Channel.empty).rename f := by
  unfold rename
  cases c.channel <;> rfl

theorem rename_setPlace (hf : Function.Injective f) (c : Company) (tag : Tag)
    (place : Option Nat) :
    (c.setPlace tag place).rename f = (c.rename f).setPlace (f tag) place := by
  unfold setPlace rename
  rw [List.map_map, List.map_map]
  congr 1
  apply List.map_congr_left
  intro s _
  simp only [Function.comp_apply, hf.eq_iff]
  split <;> rfl

theorem rename_join (f : Tag → Tag) (c : Company) (tag : Tag) :
    (c.join tag).rename f = (c.rename f).join (f tag) := by
  unfold join
  rw [channel_rename_getD]
  unfold rename
  rw [List.map_append]
  rfl

theorem rename_dropReceiver (hf : Function.Injective f) (c : Company) (tag : Tag) :
    (c.dropReceiver tag).rename f = (c.rename f).dropReceiver (f tag) := by
  unfold dropReceiver
  rw [place?_rename hf, ← rename_setPlace hf]
  split
  · unfold rename
    cases c.channel <;> rfl
  · rfl

theorem rename_dropMember (hf : Function.Injective f) (c : Company) (tag : Tag) :
    (c.dropMember tag).rename f = (c.rename f).dropMember (f tag) := by
  unfold dropMember
  rw [place?_rename hf]
  split
  · unfold rename
    congr 1
    · cases c.channel with
      | none => rfl
      | some channel =>
          rw [Option.map_some, Option.filter_some, Option.filter_some, apply_ite (Option.map _)]
          rfl
    · rw [List.filter_map]
      congr 1
      apply List.filter_congr
      intro s _
      simp [hf.eq_iff]
  · rfl

theorem rename_publish (hf : Function.Injective f) (c : Company) (room : Nat) (tag : Tag)
    (p : Payload) : (c.publish room tag p).rename f = (c.rename f).publish room (f tag) p := by
  unfold publish
  rw [place?_rename hf]
  split
  · unfold rename
    cases c.channel with
    | none => rfl
    | some channel => exact congrArg (Company.mk · _) (congrArg some (channel.rename_send f room _))
  · rfl

theorem receive_rename (hf : Function.Injective f) (c : Company) (tag : Tag) :
    (c.rename f).receive (f tag) = ((c.receive tag).1, (c.receive tag).2.rename f) := by
  unfold receive
  rw [place?_rename hf, channel_rename_getD]
  split
  · rw [Channel.receive_rename hf]
    exact congrArg (Prod.mk _) (rename_setPlace hf c tag _).symm
  · rfl

theorem rename_move (hf : Function.Injective f) (c : Company) (room : Nat) (next : Tag)
    (g : GroupName) (m : Groups.Move) :
    (c.move room next g m).rename f = (c.rename f).move room (f next) g (m.rename f) := by
  cases m with
  | join g' =>
      show (if g' = g then c.join next else c).rename f = if g' = g then _ else _
      rw [apply_ite (rename f), rename_join]
  | dropReceiver tag => exact rename_dropReceiver hf c tag
  | dropMember tag => exact rename_dropMember hf c tag
  | publish tag p => exact rename_publish hf c room tag p
  | receive tag => exact (congrArg Prod.snd (receive_rename hf c tag)).symm

end Company

namespace Groups

/-!
# Who came to which group
-/

structure Accords (rooms : List GroupName) (gs : Groups) : Prop where
  sound : gs.IsSound
  joined : gs.joined = rooms.length
  enrolled : ∀ t g live, gs.enrolment? t = some (g, live) → rooms[t.number]? = some g

namespace Accords

variable {rooms : List GroupName} {gs : Groups} {g : GroupName} {t : Tag}

theorem ofCapacity (capacity : Nat) : Accords [] (Groups.ofCapacity capacity) where
  sound := isSound_ofCapacity capacity
  joined := rfl
  enrolled _ _ _ h := by cases h

theorem enrolled_move (h : Accords rooms gs) (m : Move) {live : Bool}
    (ht : (gs.move m).2.enrolment? t = some (g, live)) :
    m.arrival? = some g ∧ t = ⟨gs.joined⟩ ∨ ∃ live', gs.enrolment? t = some (g, live') := by
  cases m with
  | join g' =>
      change (gs.join g').2.enrolment? t = some (g, live) at ht
      rw [enrolment?_join h.sound] at ht
      split at ht
      · rename_i htag
        cases ht
        exact Or.inl ⟨rfl, htag⟩
      · exact Or.inr ⟨live, ht⟩
  | dropReceiver tag =>
      change (gs.dropReceiver tag).enrolment? t = some (g, live) at ht
      rw [enrolment?_dropReceiver] at ht
      split at ht
      · rcases Option.map_eq_some_iff.mp ht with ⟨⟨g', live'⟩, he, heq⟩
        cases heq
        exact Or.inr ⟨live', he⟩
      · exact Or.inr ⟨live, ht⟩
  | dropMember tag =>
      change (gs.dropMember tag).enrolment? t = some (g, live) at ht
      rw [enrolment?_dropMember] at ht
      split at ht
      · exact Or.inr ⟨live, (Option.filter_eq_some_iff.mp ht).left⟩
      · exact Or.inr ⟨live, ht⟩
  | publish tag p => exact Or.inr ⟨live, (enrolment?_publish gs tag t p).symm.trans ht⟩
  | receive tag => exact Or.inr ⟨live, (enrolment?_receive h.sound tag t).symm.trans ht⟩

theorem move (h : Accords rooms gs) (m : Move) :
    Accords (rooms ++ m.arrival?.toList) (gs.move m).2 := by
  constructor
  · exact h.sound.move m
  · rw [joined_move, h.joined, List.length_append]
  · intro t g live ht
    rcases h.enrolled_move m ht with ⟨hg, rfl⟩ | ⟨live', hold⟩
    · rw [hg, h.joined]
      exact List.getElem?_concat_length
    · have hroom := h.enrolled t g live' hold
      rw [List.getElem?_append_left (List.getElem?_eq_some_iff.mp hroom).choose]
      exact hroom

theorem group_eq (h : Accords rooms gs) (ht : rooms[t.number]? = some g) {s : Subscription}
    (hs : gs.subscription? t = some s) : s.group = g := by
  have hroom := h.enrolled t s.group s.isLive (by rw [enrolment?, hs]; rfl)
  rw [ht] at hroom
  exact (Option.some.inj hroom).symm

theorem place?_of_ne (h : Accords rooms gs) (ht : rooms[t.number]? ≠ some g) :
    (gs.company g).place? t = none := by
  rw [h.sound.place?_company]
  cases hs : gs.subscription? t with
  | none => rfl
  | some s =>
      rw [Option.filter_some, if_neg]
      · rfl
      · intro hg
        apply ht
        have hroom := h.enrolled t s.group s.isLive (by rw [enrolment?, hs]; rfl)
        rw [hroom, of_decide_eq_true hg]

end Accords

/-!
# Mirror images
-/

/-- The groups on the left have the company that those on the right have, under other tags. -/
structure Mirrors (f : Tag → Tag) (g : GroupName) (rooms rooms' : List GroupName)
    (gs gs' : Groups) : Prop where
  left : Accords rooms gs
  right : Accords rooms' gs'
  room : gs.room = gs'.room
  company : gs.company g = (gs'.company g).rename f

namespace Mirrors

variable {f : Tag → Tag} {g : GroupName} {rooms rooms' : List GroupName} {gs gs' : Groups}

theorem members_eq (h : Mirrors f g rooms rooms' gs gs') : gs.members g = gs'.members g := by
  rw [← members_company, ← members_company, h.company, Company.members_rename]

theorem move (h : Mirrors f g rooms rooms' gs gs') (hf : Function.Injective f) (m : Move)
    (hnext : m.arrival? ≠ none → f ⟨gs'.joined⟩ = ⟨gs.joined⟩) :
    Mirrors f g (rooms ++ m.arrival?.toList) (rooms' ++ m.arrival?.toList)
      (gs.move (m.rename f)).2 (gs'.move m).2 := by
  have harrival : (m.rename f).arrival? = m.arrival? := by
    cases m <;> rfl
  constructor
  · rw [← harrival]
    exact h.left.move (m.rename f)
  · exact h.right.move m
  · rw [room_move, room_move, h.room]
  · rw [h.left.sound.company_move, h.right.sound.company_move, Company.rename_move hf, h.company,
      h.room]
    cases m with
    | join g' => rw [hnext (Option.some_ne_none g')]
    | dropReceiver | dropMember | publish | receive => rfl

theorem move_left (h : Mirrors f g rooms rooms' gs gs') (m : Move) (hjoin : m.arrival? ≠ some g)
    (htag : ∀ t ∈ m.tag?, rooms[t.number]? ≠ some g) :
    Mirrors f g (rooms ++ m.arrival?.toList) rooms' (gs.move m).2 gs' := by
  constructor
  · exact h.left.move m
  · exact h.right
  · rw [room_move, h.room]
  · rw [h.left.sound.company_move, Company.move_of_stranger hjoin, h.company]
    intro t ht
    exact h.left.place?_of_ne (htag t ht)

theorem move_of_stay (h : Mirrors f g rooms rooms' gs gs') (hf : Function.Injective f) (m : Move)
    (hstay : m.arrival? = none) :
    Mirrors f g rooms rooms' (gs.move (m.rename f)).2 (gs'.move m).2 := by
  have hmove := h.move hf m fun harrival => absurd hstay harrival
  rw [hstay, Option.toList_none, List.append_nil, List.append_nil] at hmove
  exact hmove

theorem move_left_of_stay (h : Mirrors f g rooms rooms' gs gs') (m : Move)
    (hstay : m.arrival? = none) (htag : ∀ t ∈ m.tag?, rooms[t.number]? ≠ some g) :
    Mirrors f g rooms rooms' (gs.move m).2 gs' := by
  have hother : m.arrival? ≠ some g := by
    rw [hstay]
    exact (Option.some_ne_none g).symm
  have hmove := h.move_left m hother htag
  rw [hstay, Option.toList_none, List.append_nil] at hmove
  exact hmove

theorem receive_eq (h : Mirrors f g rooms rooms' gs gs') (hf : Function.Injective f) {t : Tag}
    (ht : rooms[(f t).number]? = some g) (ht' : rooms'[t.number]? = some g) :
    (gs.receive (f t)).1 = (gs'.receive t).1 := by
  rw [(h.left.sound.company_receive (f t) g).right fun _ hs => h.left.group_eq ht hs,
    (h.right.sound.company_receive t g).right fun _ hs => h.right.group_eq ht' hs, h.company,
    Company.receive_rename hf]

end Mirrors
end Groups
end Relay
end Parley
