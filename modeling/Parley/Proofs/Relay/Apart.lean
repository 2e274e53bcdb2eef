import Parley.Proofs.Relay.Mirror

/-!
# Groups do not interfere

Two runs that have the same share for a group look the same to the group, whatever else
happens in them, since either of them looks to it like its share alone.
-/

namespace Parley
namespace Relay
namespace Hub

/-- What the sessions of the group were sent is the same in both logs. -/
structure Tallies (g : GroupName) (rooms : List GroupName) (log log' : List (Nat × List Outgoing)) :
    Prop where
  same : ∀ (k i : Nat), (sessionsIn g rooms)[k]? = some i → sentTo log i = sentTo log' k
  unborn : ∀ i, rooms.length ≤ i → sentTo log i = []
  unbornAlone : ∀ k, (sessionsIn g rooms).length ≤ k → sentTo log' k = []

variable {f : Tag → Tag} {g : GroupName} {rooms : List GroupName}

namespace Tallies

variable {log log' : List (Nat × List Outgoing)} {i k : Nat} {written : List Outgoing}

theorem arrive (h : Tallies g rooms log log') (arrival : Option GroupName) :
    Tallies g (rooms ++ arrival.toList) log log' := by
  constructor
  · intro k i hk
    rcases of_getElem?_sessionsIn_append hk with hold | ⟨hlek, hlei⟩
    · exact h.same k i hold
    · rw [h.unborn i hlei, h.unbornAlone k hlek]
  · intro i hi
    apply h.unborn
    rw [List.length_append] at hi
    omega
  · intro k hk
    apply h.unbornAlone
    apply Nat.le_of_not_lt
    intro hlt
    have hstays := getElem?_sessionsIn_append (List.getElem?_eq_getElem hlt) arrival
    exact absurd (sessionsIn_lt hstays).left (Nat.not_lt_of_le hk)

theorem write (h : Tallies g rooms log log') (hk : (sessionsIn g rooms)[k]? = some i) :
    Tallies g rooms (log ++ [(i, written)]) (log' ++ [(k, written)]) := by
  rcases sessionsIn_lt hk with ⟨hlt, hi⟩
  constructor
  · intro l j hl
    rw [sentTo_concat, sentTo_concat, h.same l j hl]
    congr 1
    by_cases hkl : k = l
    · subst hkl
      rw [hk] at hl
      cases hl
      rw [if_pos rfl, if_pos rfl]
    · rw [if_neg hkl, if_neg]
      rintro rfl
      exact hkl (sessionsIn_inj hk hl)
  · intro j hj
    rw [sentTo_concat, h.unborn j hj, if_neg (by omega)]
    rfl
  · intro l hl
    rw [sentTo_concat, h.unbornAlone l hl, if_neg (by omega)]
    rfl

theorem write_left (h : Tallies g rooms log log') (hi : i ∉ sessionsIn g rooms)
    (hwritten : i < rooms.length ∨ written = []) :
    Tallies g rooms (log ++ [(i, written)]) log' := by
  constructor
  · intro l j hl
    have hne : i ≠ j := by
      rintro rfl
      exact hi (List.mem_of_getElem? hl)
    rw [sentTo_concat, if_neg hne, List.append_nil]
    exact h.same l j hl
  · intro j hj
    rw [sentTo_concat, h.unborn j hj]
    rcases hwritten with hlt | hnothing
    · rw [if_neg (by omega)]
      rfl
    · rw [hnothing, ite_self]
      rfl
  · exact h.unbornAlone

end Tallies

theorem Names.of_append {arrival : Option GroupName}
    (hn : Names f g (rooms ++ arrival.toList)) : Names f g rooms :=
  ⟨hn.injective, fun k i hk => hn.numbered k i (getElem?_sessionsIn_append hk arrival)⟩

theorem exists_names (g : GroupName) (rooms : List GroupName) : ∃ f, Names f g rooms := by
  refine ⟨fun t => ⟨(sessionsIn g rooms)[t.number]?.getD (rooms.length + t.number)⟩, ?_, ?_⟩
  · rintro ⟨j⟩ ⟨k⟩ hsame
    replace hsame := congrArg Tag.number hsame
    dsimp only at hsame
    cases hj : (sessionsIn g rooms)[j]? with
    | none =>
        cases hk : (sessionsIn g rooms)[k]? with
        | none =>
            rw [hj, hk] at hsame
            exact congrArg Tag.mk (Nat.add_left_cancel hsame)
        | some i =>
            have hi := (sessionsIn_lt hk).right
            rw [hj, hk, Option.getD_none, Option.getD_some] at hsame
            omega
    | some i =>
        have hi := (sessionsIn_lt hj).right
        cases hk : (sessionsIn g rooms)[k]? with
        | none =>
            rw [hj, hk, Option.getD_none, Option.getD_some] at hsame
            omega
        | some i' =>
            rw [hj, hk, Option.getD_some, Option.getD_some] at hsame
            rw [← hsame] at hk
            exact congrArg Tag.mk (sessionsIn_inj hj hk)
  · intro k i hk
    dsimp only
    rw [hk]
    rfl

theorem mirrors_ofLimits (f : Tag → Tag) (g : GroupName) (capacity limit : Nat) :
    Mirrors f g [] (ofLimits capacity limit) (ofLimits capacity limit) where
  groups := ⟨Groups.Accords.ofCapacity capacity, Groups.Accords.ofCapacity capacity, rfl, rfl⟩
  limit := rfl
  arrived := rfl
  arrivedAlone := rfl
  seated _ _ hs := by cases hs
  twins _ _ hk := by cases hk

/-- Turn by turn, the group is in the run what it is in its share. -/
theorem mirrors_play (capacity limit : Nat) (ts : List (Socket × Turn))
    (hn : Names f g (roomsOf ts)) :
    Mirrors f g (roomsOf ts) ((ofLimits capacity limit).play ts).2
        ((ofLimits capacity limit).play (share g ts)).2 ∧
      Tallies g (roomsOf ts) ((ofLimits capacity limit).play ts).1
        ((ofLimits capacity limit).play (share g ts)).1 := by
  induction ts using List.reverseRecOn with
  | nil =>
      refine ⟨mirrors_ofLimits f g capacity limit, ?_, fun _ _ => rfl, fun _ _ => rfl⟩
      intro k i hk
      cases hk
  | append_singleton ts t ih =>
      rcases t with ⟨socket, t⟩
      rw [roomsOf_concat] at hn ⊢
      rcases ih hn.of_append with ⟨hm, htallies⟩
      have harrived := htallies.arrive t.arrival?
      rw [play_concat, share_concat]
      cases hown : t.within? g (sessionsIn g (roomsOf ts)) with
      | none =>
          rw [Option.map_none, Option.toList_none, List.append_nil]
          rcases hm.turn_left socket hown with ⟨hi, hwritten, hnext⟩
          exact ⟨hnext, harrived.write_left hi hwritten⟩
      | some own =>
          rw [Option.map_some, Option.toList_some, play_concat]
          rcases hm.turn socket hn hown with ⟨hk, hwritten, hnext⟩
          refine ⟨hnext, ?_⟩
          dsimp only
          rw [hwritten]
          exact harrived.write hk

/-- A group sees as much of a run as of its share. -/
theorem appearance_share (capacity limit : Nat) (g : GroupName) (ts : List (Socket × Turn)) :
    appearance capacity limit g (share g ts) = appearance capacity limit g ts := by
  rcases exists_names g (roomsOf ts) with ⟨f, hn⟩
  rcases mirrors_play capacity limit ts hn with ⟨hm, htallies⟩
  unfold appearance
  rw [roomsOf_share, sessionsIn_replicate]
  generalize (ofLimits capacity limit).play ts = run at hm htallies
  generalize (ofLimits capacity limit).play (share g ts) = alone at hm htallies
  apply congrArg₂ Appearance.mk
  · apply List.ext_getElem?
    intro k
    rw [List.getElem?_map, List.getElem?_map]
    cases hk : (sessionsIn g (roomsOf ts))[k]? with
    | none =>
        rw [List.getElem?_eq_none]
        · rfl
        · rw [List.length_range]
          exact List.getElem?_eq_none_iff.mp hk
    | some i =>
        rcases hm.twins k i hk with ⟨s, s', hs, hs', htwins⟩
        rw [List.getElem?_range (sessionsIn_lt hk).left, Option.map_some,
          Option.map_some, hs, hs', Option.map_some, Option.map_some, htwins.connection,
          htallies.same k i hk]
  · exact hm.groups.members_eq.symm

/-- Two runs in which the sessions of a group make the same turns in the same order look the same to
the group at every two points that correspond, and to each point of one there is such a point of the
other. What the sessions of other groups do may differ, and come at any time. -/
theorem groups_apart (capacity limit : Nat) (g : GroupName) (ts ts' : List (Socket × Turn))
    (hsame : share g ts = share g ts') :
    (∀ before, before <+: ts → ∃ before', before' <+: ts' ∧ share g before' = share g before) ∧
      ∀ before before', before <+: ts → before' <+: ts' → share g before' = share g before →
        appearance capacity limit g before' = appearance capacity limit g before := by
  constructor
  · intro before hbefore
    apply exists_prefix_share
    rw [← hsame]
    exact share_mono hbefore
  · intro before before' _ _ hpoint
    rw [← appearance_share capacity limit g before', hpoint, appearance_share]

/-- The group is emptied and comes back, once with another group beside it and once with none. -/
theorem groups_apart_of_group_that_comes_back :
    let socket : Socket := fun _ => none
    let one : GroupName := ⟨"one"⟩
    let two : GroupName := ⟨"two"⟩
    let ts : List (Socket × Turn) :=
      [.go (.connect two none), .go (.connect one (some ⟨"me"⟩)), .go (.connect two none),
        .go (.connect one none), .go (.read 1 (.binary [1])), .go (.read 0 (.binary [2])),
        .go (.hear 3), .part 1 .ended, .go (.read 3 .ended), .go (.connect one none), .clear 1,
        .go (.read 2 .ended), .go (.connect one none), .go (.read 5 (.binary [3])),
        .go (.hear 4)].map fun t => (socket, t)
    let ts' : List (Socket × Turn) :=
      [.go (.connect one (some ⟨"me"⟩)), .go (.connect one none), .go (.read 0 (.binary [1])),
        .go (.hear 1), .part 0 .ended, .go (.read 1 .ended), .go (.connect one none), .clear 0,
        .go (.connect one none), .go (.read 3 (.binary [3])), .go (.hear 2)].map
          fun t => (socket, t)
    share one ts = share one ts' ∧
      appearance 4 9 one ts' =
        ⟨[([], some .closed), ([.frame (.binary [1])], some .closed),
          ([.frame (.binary [3])], some (.live none)), ([], some (.live none))], 2⟩ ∧
      appearance 4 9 one ts' = appearance 4 9 one ts := by
  intro socket one two ts ts'
  have hsame : share one ts = share one ts' := by cbv
  have happart := groups_apart 4 9 one ts ts' hsame
  exact ⟨hsame, by decide +kernel,
    happart.right ts ts' (List.prefix_refl ts) (List.prefix_refl ts') hsame.symm⟩

end Hub
end Relay
end Parley
