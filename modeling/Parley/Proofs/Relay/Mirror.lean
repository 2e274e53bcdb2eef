import Parley.Proofs.Relay.Share
import Parley.Proofs.Relay.Twins

/-!
# A group beside others and alone

A group in a hub with many groups goes on just like the same group alone in a hub of
its own, where only its share of the turns is made. Its sessions have other numbers
there, and other tags. Each turn in the share is made on both sides, and each of the
others leaves the group on its side as it is.
-/

namespace Parley
namespace Relay

theorem Session.Twins.self {t t' : Tag} {s s' : Session} (h : s.Twins t t' s') :
    s.Twins t t s := by
  rcases s with ⟨connection, seat⟩
  rcases s' with ⟨connection', seat'⟩
  rcases h with ⟨_, hseats⟩
  cases hseats with
  | held => exact ⟨rfl, .held⟩
  | left => exact ⟨rfl, .left⟩

namespace Hub

theorem session?_connect (h : Hub) (socket : Socket) (g : GroupName) (hint : Option PeerId)
    (j : Nat) :
    (h.connect socket g hint).2.2.session? j =
      if j = h.sessions.length then some ⟨.live hint, some (h.groups.join g).1⟩
      else h.session? j := by
  unfold session?
  rw [(h.connect_eq socket g hint).left]
  by_cases hj : j = h.sessions.length
  · rw [if_pos hj, hj]
    exact List.getElem?_concat_length
  · rw [if_neg hj, List.getElem?_append]
    split
    · rfl
    · rename_i hge
      rw [List.getElem?_eq_none (Nat.le_of_not_lt hge), List.getElem?_eq_none]
      rw [List.length_singleton]
      omega

/-- The hub on the left has, among other groups, the one that the hub on the right has alone. -/
structure Mirrors (f : Tag → Tag) (g : GroupName) (rooms : List GroupName) (h h' : Hub) :
    Prop where
  groups : Groups.Mirrors f g rooms (List.replicate (sessionsIn g rooms).length g)
    h.groups h'.groups
  limit : h.limit = h'.limit
  arrived : h.sessions.length = rooms.length
  arrivedAlone : h'.sessions.length = (sessionsIn g rooms).length
  seated : ∀ i s, h.session? i = some s → s.Twins ⟨i⟩ ⟨i⟩ s
  twins : ∀ (k i : Nat), (sessionsIn g rooms)[k]? = some i →
    ∃ s s', h.session? i = some s ∧ h'.session? k = some s' ∧ s.Twins ⟨i⟩ ⟨k⟩ s'

/-- Tags stay apart, and each session of the group has the tag that is its number's image. -/
structure Names (f : Tag → Tag) (g : GroupName) (rooms : List GroupName) : Prop where
  injective : Function.Injective f
  numbered : ∀ (k i : Nat), (sessionsIn g rooms)[k]? = some i → f ⟨k⟩ = ⟨i⟩

namespace Mirrors

variable {f : Tag → Tag} {g : GroupName} {rooms : List GroupName} {h h' : Hub} {i k : Nat}
  {socket : Socket}

theorem withGroups (hm : Mirrors f g rooms h h') {gs gs' : Groups}
    (hgroups : Groups.Mirrors f g rooms (List.replicate (sessionsIn g rooms).length g) gs gs') :
    Mirrors f g rooms (h.withGroups gs) (h'.withGroups gs') :=
  ⟨hgroups, hm.limit, hm.arrived, hm.arrivedAlone, hm.seated, hm.twins⟩

theorem lt_of_session? (hm : Mirrors f g rooms h h') {s : Session} (hs : h.session? i = some s) :
    i < rooms.length := by
  rw [← hm.arrived]
  exact (List.getElem?_eq_some_iff.mp hs).choose

/-!
# Turns in other groups
-/

theorem foreign_of_not_mem (hi : i ∉ sessionsIn g rooms) :
    ∀ t ∈ some (Tag.mk i), rooms[t.number]? ≠ some g := by
  intro t ht hroom
  cases ht
  exact hi (mem_sessionsIn.mpr hroom)

theorem tag_of_seat (hm : Mirrors f g rooms h h') {tag : Tag}
    (hseat : (h.session? i).bind (·.seat) = some tag) : tag = ⟨i⟩ := by
  rcases Option.bind_eq_some_iff.mp hseat with ⟨s, hs, hheld⟩
  have hseats := (hm.seated i s hs).seats
  rw [hheld] at hseats
  cases hseats
  rfl

theorem withGroups_left (hm : Mirrors f g rooms h h') {gs : Groups}
    (hgroups : Groups.Mirrors f g rooms (List.replicate (sessionsIn g rooms).length g) gs
      h'.groups) :
    Mirrors f g rooms (h.withGroups gs) h' :=
  ⟨hgroups, hm.limit, hm.arrived, hm.arrivedAlone, hm.seated, hm.twins⟩

theorem set_left (hm : Mirrors f g rooms h h') (hi : i ∉ sessionsIn g rooms) {house : House}
    {s : Session} (hs : s.Twins ⟨i⟩ ⟨i⟩ s)
    (hgroups : Groups.Mirrors f g rooms (List.replicate (sessionsIn g rooms).length g)
      house.groups h'.groups) :
    Mirrors f g rooms { h with house := house, sessions := h.sessions.set i s } h' := by
  refine ⟨hgroups, hm.limit, ?_, hm.arrivedAlone, ?_, ?_⟩
  · show (h.sessions.set i s).length = _
    rw [List.length_set]
    exact hm.arrived
  · intro j s' hs'
    change (h.sessions.set i s)[j]? = some s' at hs'
    rw [List.getElem?_set] at hs'
    split at hs'
    · rename_i hj
      subst hj
      split at hs'
      · cases hs'
        exact hs
      · cases hs'
    · exact hm.seated j s' hs'
  · intro k j hk
    have hne : i ≠ j := by
      rintro rfl
      exact hi (List.mem_of_getElem? hk)
    rcases hm.twins k j hk with ⟨s₁, s₂, hs₁, hs₂, htwins⟩
    refine ⟨s₁, s₂, ?_, hs₂, htwins⟩
    show (h.sessions.set i s)[j]? = some s₁
    rw [List.getElem?_set_ne hne]
    exact hs₁

theorem isKept_left (hi : i ∉ sessionsIn g rooms) (rooms' : List GroupName) (gs' : Groups) :
    Groups.IsKept (fun gs _ => Groups.Mirrors f g rooms rooms' gs gs') ⟨i⟩ ⟨i⟩ := by
  have htag := foreign_of_not_mem hi
  constructor
  · intro gs _ p hgroups
    exact hgroups.move_left_of_stay (.publish ⟨i⟩ p) rfl htag
  · intro gs _ hgroups
    exact (hgroups.move_left_of_stay (.dropReceiver ⟨i⟩) rfl htag).move_left_of_stay
      (.dropMember ⟨i⟩) rfl htag

theorem advance_left (hm : Mirrors f g rooms h h') (hi : i ∉ sessionsIn g rooms)
    (input : Session.Input) : Mirrors f g rooms (h.advance socket i input).2 h' := by
  unfold Hub.advance
  cases hs : h.session? i with
  | none => exact hm
  | some s =>
      have hpaired : Standing.Paired (fun gs _ => Groups.Mirrors f g rooms
          (List.replicate (sessionsIn g rooms).length g) gs h'.groups) ⟨i⟩ ⟨i⟩
          ⟨h.house, s, []⟩ ⟨h.house, s, []⟩ :=
        ⟨hm.groups, hm.seated i s hs, rfl⟩
      have hnext := hpaired.advance (isKept_left hi _ _) h.limit socket input
      exact hm.set_left hi hnext.twins hnext.groups

theorem hear_left (hm : Mirrors f g rooms h h') (hi : i ∉ sessionsIn g rooms) :
    Mirrors f g rooms (h.hear socket i).2 h' := by
  cases hseat : (h.session? i).bind (·.seat) with
  | none =>
      rw [(hear_of_no_seat socket hseat).left]
      exact hm
  | some tag =>
      have htag := hm.tag_of_seat hseat
      subst htag
      have hgroups := hm.groups.move_left_of_stay (.receive ⟨i⟩) rfl
        (foreign_of_not_mem hi)
      change Groups.Mirrors _ _ _ _ (h.house.groups.receive ⟨i⟩).2 _ at hgroups
      have hreceived := hm.withGroups_left hgroups
      unfold hear
      rw [hseat]
      dsimp only
      generalize h.house.groups.receive ⟨i⟩ = result at hreceived
      rcases result with ⟨_ | p, gs⟩
      · exact hreceived
      · exact hreceived.advance_left hi (.heard p)

theorem part_left (hm : Mirrors f g rooms h h') (hi : i ∉ sessionsIn g rooms) (frame : Incoming) :
    Mirrors f g rooms (h.part socket i frame) h' := by
  have hread : Mirrors f g rooms (h.read socket i frame).2 h' := hm.advance_left hi (.read frame)
  unfold part
  dsimp only
  split
  · rename_i tag hseat _
    have htag := hm.tag_of_seat hseat
    subst htag
    have hgroups := hm.groups.move_left_of_stay (.dropReceiver ⟨i⟩) rfl
      (foreign_of_not_mem hi)
    exact hread.withGroups_left hgroups
  · exact hread

theorem tag_connect (hm : Mirrors f g rooms h h') (g' : GroupName) :
    (h.groups.join g').1 = ⟨h.sessions.length⟩ := by
  show Tag.mk h.groups.joined = _
  rw [hm.groups.left.joined, hm.arrived]

theorem seated_connect (hm : Mirrors f g rooms h h') (g' : GroupName) (hint : Option PeerId)
    {s : Session} (hs : (h.connect socket g' hint).2.2.session? i = some s) :
    s.Twins ⟨i⟩ ⟨i⟩ s := by
  rw [session?_connect] at hs
  split at hs
  · rename_i hi
    cases hs
    rw [hm.tag_connect, hi]
    exact ⟨rfl, .held⟩
  · exact hm.seated i s hs

theorem arrived_connect (hm : Mirrors f g rooms h h') (g' : GroupName) (hint : Option PeerId) :
    (h.connect socket g' hint).2.2.sessions.length = (rooms ++ [g']).length := by
  rw [(h.connect_eq socket g' hint).left, List.length_append, List.length_append, hm.arrived]
  rfl

theorem connect_left (hm : Mirrors f g rooms h h') {g' : GroupName} (hg : g' ≠ g)
    (hint : Option PeerId) :
    Mirrors f g (rooms ++ [g']) (h.connect socket g' hint).2.2 h' := by
  have hin : sessionsIn g (rooms ++ [g']) = sessionsIn g rooms := by
    rw [sessionsIn_concat, if_neg hg, List.append_nil]
  have hmove := hm.groups.move_left (.join g') (fun heq => hg (Option.some.inj heq))
    (fun t ht => by cases ht)
  refine ⟨?_, hm.limit, hm.arrived_connect g' hint, ?_, fun _ _ => hm.seated_connect g' hint, ?_⟩
  · rw [hin, (h.connect_eq socket g' hint).right]
    exact hmove
  · rw [hin]
    exact hm.arrivedAlone
  · intro k j hk
    rw [hin] at hk
    rcases hm.twins k j hk with ⟨s, s', hs, hs', htwins⟩
    refine ⟨s, s', ?_, hs', htwins⟩
    rw [session?_connect, if_neg]
    · exact hs
    · rw [hm.arrived]
      exact Nat.ne_of_lt (hm.lt_of_session? hs)

/-!
# Turns in the group
-/

theorem set (hm : Mirrors f g rooms h h') (hk : (sessionsIn g rooms)[k]? = some i)
    {house house' : House} {s s' : Session} (htwins : s.Twins ⟨i⟩ ⟨k⟩ s')
    (hgroups : Groups.Mirrors f g rooms (List.replicate (sessionsIn g rooms).length g)
      house.groups house'.groups) :
    Mirrors f g rooms { h with house := house, sessions := h.sessions.set i s }
      { h' with house := house', sessions := h'.sessions.set k s' } := by
  rcases hm.twins k i hk with ⟨s₁, s₂, hs₁, hs₂, _⟩
  refine ⟨hgroups, hm.limit, ?_, ?_, ?_, ?_⟩
  · show (h.sessions.set i s).length = _
    rw [List.length_set]
    exact hm.arrived
  · show (h'.sessions.set k s').length = _
    rw [List.length_set]
    exact hm.arrivedAlone
  · intro j r hr
    change (h.sessions.set i s)[j]? = some r at hr
    rw [List.getElem?_set] at hr
    split at hr
    · rename_i hj
      subst hj
      split at hr
      · cases hr
        exact htwins.self
      · cases hr
    · exact hm.seated j r hr
  · intro l j hl
    show ∃ r r', (h.sessions.set i s)[j]? = some r ∧ (h'.sessions.set k s')[l]? = some r' ∧ _
    by_cases hlk : l = k
    · subst hlk
      rw [hk] at hl
      cases hl
      refine ⟨s, s', ?_, ?_, htwins⟩
      · exact List.getElem?_set_self (List.getElem?_eq_some_iff.mp hs₁).choose
      · exact List.getElem?_set_self (List.getElem?_eq_some_iff.mp hs₂).choose
    · have hji : i ≠ j := by
        rintro rfl
        exact hlk (sessionsIn_inj hl hk)
      rw [List.getElem?_set_ne hji, List.getElem?_set_ne (Ne.symm hlk)]
      exact hm.twins l j hl

theorem isKept (hn : Names f g rooms) (hk : (sessionsIn g rooms)[k]? = some i)
    (rooms' : List GroupName) :
    Groups.IsKept (Groups.Mirrors f g rooms rooms') ⟨i⟩ ⟨k⟩ := by
  rw [← hn.numbered k i hk]
  constructor
  · intro gs gs' p hgroups
    exact hgroups.move_of_stay hn.injective (.publish ⟨k⟩ p) rfl
  · intro gs gs' hgroups
    exact (hgroups.move_of_stay hn.injective (.dropReceiver ⟨k⟩) rfl).move_of_stay
      hn.injective (.dropMember ⟨k⟩) rfl

theorem advance (hm : Mirrors f g rooms h h') (hn : Names f g rooms)
    (hk : (sessionsIn g rooms)[k]? = some i) (input : Session.Input) :
    (h.advance socket i input).1 = (h'.advance socket k input).1 ∧
      Mirrors f g rooms (h.advance socket i input).2 (h'.advance socket k input).2 := by
  rcases hm.twins k i hk with ⟨s, s', hs, hs', htwins⟩
  have hpaired : Standing.Paired (Groups.Mirrors f g rooms
      (List.replicate (sessionsIn g rooms).length g)) ⟨i⟩ ⟨k⟩
      ⟨h.house, s, []⟩ ⟨h'.house, s', []⟩ :=
    ⟨hm.groups, htwins, rfl⟩
  have hnext := hpaired.advance (isKept hn hk _) h.limit socket input
  have hlimit : Session.advance h'.limit = Session.advance h.limit := by
    rw [hm.limit]
  unfold Hub.advance
  rw [hs, hs', hlimit]
  exact ⟨hnext.written, hm.set hk hnext.twins hnext.groups⟩

theorem hear (hm : Mirrors f g rooms h h') (hn : Names f g rooms)
    (hk : (sessionsIn g rooms)[k]? = some i) :
    (h.hear socket i).1 = (h'.hear socket k).1 ∧
      Mirrors f g rooms (h.hear socket i).2 (h'.hear socket k).2 := by
  rcases hm.twins k i hk with ⟨⟨connection, seat⟩, ⟨connection', seat'⟩, hs, hs', _, hseats⟩
  unfold Hub.hear
  rw [hs, hs']
  cases hseats with
  | left => exact ⟨rfl, hm⟩
  | held =>
      have htag := hn.numbered k i hk
      have hroom : rooms[i]? = some g := mem_sessionsIn.mp (List.mem_of_getElem? hk)
      have hpayload : (h.house.groups.receive ⟨i⟩).1 = (h'.house.groups.receive ⟨k⟩).1 := by
        rw [← htag]
        apply hm.groups.receive_eq hn.injective
        · rw [htag]
          exact hroom
        · rw [List.getElem?_replicate, if_pos (sessionsIn_lt hk).left]
      have hgroups := hm.groups.move_of_stay hn.injective (.receive ⟨k⟩) rfl
      change Groups.Mirrors _ _ _ _ (h.house.groups.receive (f ⟨k⟩)).2
        (h'.house.groups.receive ⟨k⟩).2 at hgroups
      rw [htag] at hgroups
      have hreceived := hm.withGroups hgroups
      simp only [Option.bind_some]
      generalize h.house.groups.receive ⟨i⟩ = left at hpayload hreceived
      generalize h'.house.groups.receive ⟨k⟩ = right at hpayload hreceived
      rcases left with ⟨_ | p, gs⟩
      · rcases right with ⟨payload, gs'⟩
        cases hpayload
        exact ⟨rfl, hreceived⟩
      · rcases right with ⟨payload, gs'⟩
        cases hpayload
        exact hreceived.advance hn hk (.heard p)

theorem part (hm : Mirrors f g rooms h h') (hn : Names f g rooms)
    (hk : (sessionsIn g rooms)[k]? = some i) (frame : Incoming) :
    Mirrors f g rooms (h.part socket i frame) (h'.part socket k frame) := by
  have hread : Mirrors f g rooms (h.read socket i frame).2 (h'.read socket k frame).2 :=
    (hm.advance hn hk (.read frame)).right
  rcases hm.twins k i hk with ⟨⟨connection, seat⟩, ⟨connection', seat'⟩, hs, hs', _, hseats⟩
  rcases hread.twins k i hk with ⟨⟨after, seat₂⟩, ⟨after', seat₂'⟩, hafter, hafter', _, hseats₂⟩
  unfold Hub.part
  dsimp only
  rw [hs, hs', hafter, hafter']
  cases hseats with
  | left => exact hread
  | held =>
      cases hseats₂ with
      | held => exact hread
      | left =>
          have hgroups := hm.groups.move_of_stay hn.injective (.dropReceiver ⟨k⟩) rfl
          change Groups.Mirrors _ _ _ _ (h.groups.dropReceiver (f ⟨k⟩)) _ at hgroups
          rw [hn.numbered k i hk] at hgroups
          exact hread.withGroups hgroups

theorem connect (hm : Mirrors f g rooms h h') (hn : Names f g (rooms ++ [g]))
    (hint : Option PeerId) :
    Mirrors f g (rooms ++ [g]) (h.connect socket g hint).2.2 (h'.connect socket g hint).2.2 := by
  have hin : sessionsIn g (rooms ++ [g]) = sessionsIn g rooms ++ [rooms.length] := by
    rw [sessionsIn_concat, if_pos rfl]
  have htag : (h'.groups.join g).1 = ⟨h'.sessions.length⟩ := by
    show Tag.mk h'.groups.joined = _
    rw [hm.groups.right.joined, hm.arrivedAlone, List.length_replicate]
  have hnew : (sessionsIn g (rooms ++ [g]))[(sessionsIn g rooms).length]? = some rooms.length := by
    rw [hin]
    exact List.getElem?_concat_length
  have hmove := hm.groups.move hn.injective (.join g) fun _ => by
    rw [hm.groups.left.joined, hm.groups.right.joined, List.length_replicate]
    exact hn.numbered _ _ hnew
  refine ⟨?_, hm.limit, hm.arrived_connect g hint, ?_, fun _ _ => hm.seated_connect g hint, ?_⟩
  · rw [hin, (h.connect_eq socket g hint).right, (h'.connect_eq socket g hint).right,
      List.length_append, List.length_singleton, List.replicate_succ']
    exact hmove
  · rw [hin, (h'.connect_eq socket g hint).left, List.length_append, List.length_append,
      hm.arrivedAlone]
    rfl
  · intro k j hk
    rw [session?_connect, session?_connect, hm.tag_connect, htag, hm.arrived, hm.arrivedAlone]
    by_cases hlast : k = (sessionsIn g rooms).length
    · subst hlast
      rw [hnew] at hk
      cases hk
      rw [if_pos rfl, if_pos rfl]
      exact ⟨_, _, rfl, rfl, rfl, .held⟩
    · rw [hin, List.getElem?_append] at hk
      split at hk
      · rcases hm.twins k j hk with ⟨s, s', hs, hs', htwins⟩
        rw [if_neg (Nat.ne_of_lt (hm.lt_of_session? hs)), if_neg hlast]
        exact ⟨s, s', hs, hs', htwins⟩
      · have hlt := (List.getElem?_eq_some_iff.mp hk).choose
        rw [List.length_singleton] at hlt
        omega

/-!
# Turns
-/

theorem written_connect (h : Hub) (socket : Socket) (g : GroupName) (hint : Option PeerId) :
    (h.connect socket g hint).2.1 = [] := by
  cases hint <;> rfl

theorem written_advance (hs : h.session? i = none) (input : Session.Input) :
    (h.advance socket i input).1 = [] := by
  unfold Hub.advance
  rw [hs]

theorem of_within? {c : Nat → Turn} {own : Turn}
    (hown : ((sessionsIn g rooms).idxOf? i).map c = some own) :
    ∃ k : Nat, (sessionsIn g rooms)[k]? = some i ∧ own = c k := by
  rcases Option.map_eq_some_iff.mp hown with ⟨k, hk, rfl⟩
  rcases List.findIdx?_eq_some_iff_getElem.mp hk with ⟨hlt, hget, _⟩
  refine ⟨k, ?_, rfl⟩
  rw [List.getElem?_eq_getElem hlt]
  simpa using hget

theorem not_mem_of_within? {c : Nat → Turn}
    (hown : ((sessionsIn g rooms).idxOf? i).map c = none) : i ∉ sessionsIn g rooms := by
  intro hi
  have hother := List.findIdx?_eq_none_iff.mp (Option.map_eq_none_iff.mp hown) i hi
  simp at hother

/-- What is in the share of the group is done on both sides, by the same session. -/
theorem turn (hm : Mirrors f g rooms h h') (socket : Socket) {t own : Turn}
    (hn : Names f g (rooms ++ t.arrival?.toList))
    (hown : t.within? g (sessionsIn g rooms) = some own) :
    (sessionsIn g (rooms ++ t.arrival?.toList))[(h'.turn socket own).1]? =
        some (h.turn socket t).1 ∧
      (h.turn socket t).2.1 = (h'.turn socket own).2.1 ∧
      Mirrors f g (rooms ++ t.arrival?.toList) (h.turn socket t).2.2
        (h'.turn socket own).2.2 := by
  have hstay : t.arrival? = none → rooms ++ t.arrival?.toList = rooms := by
    intro hnone
    rw [hnone, Option.toList_none, List.append_nil]
  cases t with
  | go m =>
      cases m with
      | connect g' hint =>
          change (if g' = g then _ else none) = _ at hown
          split at hown
          · rename_i hg
            subst hg
            cases hown
            refine ⟨?_, ?_, hm.connect hn hint⟩
            · show (sessionsIn g' (rooms ++ [g']))[h'.sessions.length]? = some h.sessions.length
              rw [sessionsIn_concat, if_pos rfl, hm.arrived, hm.arrivedAlone]
              exact List.getElem?_concat_length
            · exact (written_connect h socket g' hint).trans
                (written_connect h' socket g' hint).symm
          · cases hown
      | read i frame =>
          rcases of_within? hown with ⟨k, hk, rfl⟩
          rw [hstay rfl] at hn ⊢
          exact ⟨hk, hm.advance hn hk (.read frame)⟩
      | hear i =>
          rcases of_within? hown with ⟨k, hk, rfl⟩
          rw [hstay rfl] at hn ⊢
          exact ⟨hk, hm.hear hn hk⟩
  | part i frame =>
      rcases of_within? hown with ⟨k, hk, rfl⟩
      rw [hstay rfl] at hn ⊢
      exact ⟨hk, (hm.advance hn hk (.read frame)).left, hm.part hn hk frame⟩
  | clear i =>
      rcases of_within? hown with ⟨k, hk, rfl⟩
      rw [hstay rfl] at hn ⊢
      have hgroups := hm.groups.move_of_stay hn.injective (.dropMember ⟨k⟩) rfl
      change Groups.Mirrors _ _ _ _ (h.groups.dropMember (f ⟨k⟩)) _ at hgroups
      rw [hn.numbered k i hk] at hgroups
      exact ⟨hk, rfl, hm.withGroups hgroups⟩

theorem turn_left (hm : Mirrors f g rooms h h') (socket : Socket) {t : Turn}
    (hown : t.within? g (sessionsIn g rooms) = none) :
    (h.turn socket t).1 ∉ sessionsIn g (rooms ++ t.arrival?.toList) ∧
      ((h.turn socket t).1 < (rooms ++ t.arrival?.toList).length ∨ (h.turn socket t).2.1 = []) ∧
      Mirrors f g (rooms ++ t.arrival?.toList) (h.turn socket t).2.2 h' := by
  have hstay : t.arrival? = none → rooms ++ t.arrival?.toList = rooms := by
    intro hnone
    rw [hnone, Option.toList_none, List.append_nil]
  have hwritten : ∀ i input, i < rooms.length ∨ (h.advance socket i input).1 = [] := by
    intro i input
    cases hs : h.session? i with
    | none => exact Or.inr (written_advance hs input)
    | some s => exact Or.inl (hm.lt_of_session? hs)
  cases t with
  | go m =>
      cases m with
      | connect g' hint =>
          change (if g' = g then _ else none) = _ at hown
          split at hown
          · cases hown
          · rename_i hg
            show h.sessions.length ∉ sessionsIn g (rooms ++ [g']) ∧ _
            refine ⟨?_, Or.inr (written_connect h socket g' hint), hm.connect_left hg hint⟩
            rw [mem_sessionsIn, hm.arrived, List.getElem?_concat_length]
            exact fun hsame => hg (Option.some.inj hsame)
      | read i frame =>
          have hi := not_mem_of_within? hown
          rw [hstay rfl]
          exact ⟨hi, hwritten i (.read frame), hm.advance_left hi (.read frame)⟩
      | hear i =>
          have hi := not_mem_of_within? hown
          rw [hstay rfl]
          refine ⟨hi, ?_, hm.hear_left hi⟩
          cases hs : h.session? i with
          | none =>
              apply Or.inr
              exact congrArg Prod.fst (hear_of_no_seat socket (by rw [hs]; rfl)).left
          | some s => exact Or.inl (hm.lt_of_session? hs)
  | part i frame =>
      have hi := not_mem_of_within? hown
      rw [hstay rfl]
      exact ⟨hi, hwritten i (.read frame), hm.part_left hi frame⟩
  | clear i =>
      have hi := not_mem_of_within? hown
      rw [hstay rfl]
      have hgroups := hm.groups.move_left_of_stay (.dropMember ⟨i⟩) rfl
        (foreign_of_not_mem hi)
      exact ⟨hi, Or.inr rfl, hm.withGroups_left hgroups⟩

end Mirrors

end Hub
end Relay
end Parley
