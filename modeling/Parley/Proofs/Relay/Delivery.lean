import Mathlib.Data.List.Infix
import Parley.Proofs.Relay.Connection
import Parley.Proofs.Relay.Pending
import Parley.Proofs.Relay.Written

/-!
# Delivery is exact

What a session reads is what others post in its group after it came, in order and
without a gap, as long as it is not overtaken. What it read and still has before it
is all there is: every turn of the hub keeps it so. Nothing else is written to its
socket than what it read and the answers to its own frames.
-/

namespace Parley
namespace Relay
namespace Chronicle

variable {c c' : Chronicle} {i : Nat} {m : Membership}

/-!
# What was read and what is left
-/

/-- What the session read and what it has before it is what others posted. -/
def IsExact (c : Chronicle) (i : Nat) (m : Membership) : Prop :=
  ∃ rest, c.postsFor i m = (c.readingsOf i).map Reading.payload ++ rest ∧
    (c.hub.groups.seat? ⟨i⟩ ≠ none → c.hub.groups.pending ⟨i⟩ = rest)

theorem postsFor_append {post : Post} (h : c'.posts = c.posts ++ [post])
    (hsince : m.since ≤ c.posts.length) (i : Nat) :
    c'.postsFor i m =
      c.postsFor i m ++
        if post.author ≠ i ∧ post.group = m.group then [post.payload] else [] := by
  rw [postsFor, postsFor, h, List.drop_append_of_le_length hsince, List.filter_append,
    List.map_append]
  by_cases hfor : post.author ≠ i ∧ post.group = m.group
  · simp [hfor]
  · rw [if_neg hfor, List.filter_cons_of_neg]
    · rfl
    · simpa using hfor

theorem postsFor_congr (h : c'.posts = c.posts) : c'.postsFor i m = c.postsFor i m := by
  rw [postsFor, h, postsFor]

theorem readingsOf_congr (h : c'.readings = c.readings) : c'.readingsOf i = c.readingsOf i := by
  rw [readingsOf, h, readingsOf]

theorem IsExact.of_same (h : c.IsExact i m) (hposts : c'.postsFor i m = c.postsFor i m)
    (hreadings : c'.readingsOf i = c.readingsOf i)
    (hpending : c'.hub.groups.seat? ⟨i⟩ ≠ none → c.hub.groups.seat? ⟨i⟩ ≠ none ∧
      c'.hub.groups.pending ⟨i⟩ = c.hub.groups.pending ⟨i⟩) : c'.IsExact i m := by
  rcases h with ⟨rest, hcomplete, hrest⟩
  refine ⟨rest, ?_, ?_⟩
  · rw [hposts, hreadings]
    exact hcomplete
  · intro hseat
    rcases hpending hseat with ⟨hheld, hsame⟩
    rw [hsame]
    exact hrest hheld

theorem IsExact.posted {j : Nat} {mj : Membership} {peer : Option PeerId} {p : Payload}
    (h : c.IsExact i m) (hseated : c.IsSeated) (hm : c.members[i]? = some m)
    (hs : c.hub.session? j = some ⟨.live peer, some ⟨j⟩⟩) (hmj : c.members[j]? = some mj)
    (hposts : c'.posts = c.posts ++ [⟨j, mj.group, p⟩]) (hreadings : c'.readings = c.readings)
    (hgroups : c'.hub.groups = (c.hub.groups.publish ⟨j⟩ p).2)
    (hkept : ¬ c'.hub.groups.IsOvertaken ⟨i⟩) : c'.IsExact i m := by
  rcases h with ⟨rest, hcomplete, hrest⟩
  refine ⟨rest ++ if j ≠ i ∧ mj.group = m.group then [p] else [], ?_, ?_⟩
  · rw [postsFor_append hposts (hseated.since m (List.mem_of_getElem? hm)), hcomplete,
      readingsOf_congr hreadings, List.append_assoc]
  · intro hseat
    rw [hgroups] at hseat hkept ⊢
    rw [Groups.seat?_publish] at hseat
    have hi := hseated.seat?_eq hm hseat
    have hj := (hseated.seated j _ mj hs hmj).seat?_of_live
    rw [Groups.pending_publish hseated.sound hj hi p hkept, hrest hseat]
    have hmeets : (⟨i⟩ : Tag) ≠ ⟨j⟩ ∧ m.group = mj.group ↔ j ≠ i ∧ mj.group = m.group := by
      simp only [ne_eq, Tag.mk.injEq]
      exact ⟨fun h => ⟨Ne.symm h.left, h.right.symm⟩, fun h => ⟨Ne.symm h.left, h.right.symm⟩⟩
    by_cases hfor : j ≠ i ∧ mj.group = m.group
    · rw [if_pos hfor, if_pos (hmeets.mpr hfor)]
    · rw [if_neg hfor, if_neg fun hboth => hfor (hmeets.mp hboth), List.append_nil]

theorem IsExact.heard {peer : Option PeerId} (h : c.IsExact i m) (hseated : c.IsSeated)
    (hm : c.members[i]? = some m) (hs : c.hub.session? i = some ⟨.live peer, some ⟨i⟩⟩)
    (hposts : c'.posts = c.posts)
    (hreadings : c'.readings = c.readings ++
      ((c.hub.groups.receive ⟨i⟩).1.map fun p => ⟨i, peer, p⟩).toList)
    (hgroups : c'.hub.groups = (c.hub.groups.receive ⟨i⟩).2)
    (hkept : ¬ c.hub.groups.IsOvertaken ⟨i⟩) : c'.IsExact i m := by
  rcases h with ⟨rest, hcomplete, hrest⟩
  have hi := (hseated.seated i _ m hs hm).seat?_of_live
  have hread := Groups.pending_receive_self hseated.sound hkept
  rw [hrest (by rw [hi]; exact Option.some_ne_none _)] at hread
  refine ⟨c'.hub.groups.pending ⟨i⟩, ?_, fun _ => rfl⟩
  rw [postsFor_congr hposts, readingsOf_append (i := i) hreadings (Reading.reader_of_mem_map i peer _),
    if_pos rfl, hcomplete, hread, hgroups, List.map_append, List.append_assoc]
  cases (c.hub.groups.receive ⟨i⟩).1 <;> rfl

/-- Every turn keeps what was read and what is left complete, unless the session is overtaken. -/
theorem Happens.isExact (hhappens : Happens c c') (hseated : c.IsSeated) (hm : c.members[i]? = some m) (h : c.IsExact i m)
    (hkept : ¬ c.hub.groups.IsOvertaken ⟨i⟩) (hkept' : ¬ c'.hub.groups.IsOvertaken ⟨i⟩) :
    c'.IsExact i m := by
  cases hhappens with
  | @idle hub frames written hsessions hgroups =>
      refine h.of_same rfl rfl ?_
      intro hseat
      change hub.groups.seat? ⟨i⟩ ≠ none at hseat
      rw [hgroups] at hseat
      exact ⟨hseat, congrArg (Groups.pending · ⟨i⟩) hgroups⟩
  | @came hub frames written g peer hsessions hgroups =>
      refine h.of_same rfl rfl ?_
      intro hseat
      change hub.groups.seat? ⟨i⟩ ≠ none at hseat
      have hne : (⟨i⟩ : Tag) ≠ (c.hub.groups.join g).1 := by
        intro htag
        have hi : i = c.hub.groups.joined := congrArg Tag.number htag
        have hlt := (List.getElem?_eq_some_iff.mp hm).choose
        rw [hseated.listed, ← hseated.joined] at hlt
        omega
      rw [hgroups, Groups.seat?_join hseated.sound, if_neg hne] at hseat
      refine ⟨hseat, ?_⟩
      change hub.groups.pending ⟨i⟩ = _
      rw [hgroups, Groups.pending_join hseated.sound, if_neg hne]
  | @learned hub frames written j peer peer' hs hsessions hgroups =>
      refine h.of_same rfl rfl ?_
      intro hseat
      change hub.groups.seat? ⟨i⟩ ≠ none at hseat
      rw [hgroups] at hseat
      exact ⟨hseat, congrArg (Groups.pending · ⟨i⟩) hgroups⟩
  | @posted hub frames written j mj peer peer' p hs hmj hsessions hgroups =>
      exact h.posted hseated hm hs hmj rfl rfl hgroups hkept'
  | @left hub frames written j peer hs hsessions hgroups =>
      refine h.of_same rfl rfl ?_
      intro hseat
      change hub.groups.seat? ⟨i⟩ ≠ none at hseat
      rcases Groups.leaving hseated.sound hgroups with ⟨_, _, hself, hothers⟩
      have hne : (⟨i⟩ : Tag) ≠ ⟨j⟩ := by
        intro htag
        rw [htag, hself] at hseat
        exact hseat rfl
      rw [(hothers ⟨i⟩ hne).left] at hseat
      exact ⟨hseat, (hothers ⟨i⟩ hne).right⟩
  | @cleared hub frames written tag hsessions hgroups =>
      refine h.of_same rfl rfl ?_
      intro hseat
      change hub.groups.seat? ⟨i⟩ ≠ none at hseat
      change _ ∧ hub.groups.pending ⟨i⟩ = _
      rw [hgroups, Groups.seat?_dropMember] at hseat
      rw [hgroups, Groups.pending_dropMember]
      exact ⟨hseat, rfl⟩
  | @heard hub frames written j peer hs hsessions hgroups =>
      by_cases hij : i = j
      · subst hij
        exact h.heard hseated hm hs rfl rfl hgroups hkept
      · have htags : (⟨i⟩ : Tag) ≠ ⟨j⟩ := fun htag => hij (congrArg Tag.number htag)
        refine h.of_same rfl (readingsOf_append_of_ne rfl (Reading.reader_of_mem_map j peer _) hij) ?_
        intro hseat
        change hub.groups.seat? ⟨i⟩ ≠ none at hseat
        change _ ∧ hub.groups.pending ⟨i⟩ = _
        rw [hgroups, Groups.seat?_receive hseated.sound] at hseat
        rw [hgroups, Groups.pending_receive_of_ne htags]
        exact ⟨hseat, rfl⟩

theorem Happens.member (hhappens : Happens c c') (hm : c.members[i]? = some m) : c'.members[i]? = some m := by
  cases hhappens with
  | came g peer hsessions hgroups =>
      exact (List.getElem?_append_left (List.getElem?_eq_some_iff.mp hm).choose).trans hm
  | idle | learned | posted | left | cleared | heard => exact hm

theorem Happens.isExact_new (hhappens : Happens c c') (hseated : c.IsSeated)
    (hm : c.members[i]? = none) (hm' : c'.members[i]? = some m) (h : c.readingsOf i = []) :
    c'.IsExact i m := by
  cases hhappens with
  | @came hub frames written g peer hsessions hgroups =>
      change (c.members ++ [⟨g, c.posts.length⟩])[i]? = some m at hm'
      have hi : i = c.members.length := by
        have hge := List.getElem?_eq_none_iff.mp hm
        have hlt := (List.getElem?_eq_some_iff.mp hm').choose
        rw [List.length_append, List.length_singleton] at hlt
        omega
      subst hi
      rw [List.getElem?_concat_length] at hm'
      cases hm'
      have htag : (⟨c.members.length⟩ : Tag) = (c.hub.groups.join g).1 := by
        rw [hseated.listed, ← hseated.joined]
        rfl
      refine ⟨[], ?_, ?_⟩
      · change c.postsFor c.members.length ⟨g, c.posts.length⟩ =
          (c.readingsOf c.members.length).map Reading.payload ++ []
        rw [h, postsFor, List.drop_length]
        rfl
      · intro _
        change hub.groups.pending _ = []
        rw [hgroups, Groups.pending_join hseated.sound, if_pos htag]
  | idle | learned | posted | left | cleared | heard =>
      rw [hm] at hm'
      cases hm'

theorem Happens.readingsOf_of_none (hhappens : Happens c c') (hseated : c.IsSeated)
    (hm : c.members[i]? = none) (h : c.readingsOf i = []) : c'.readingsOf i = [] := by
  cases hhappens with
  | idle | came | learned | posted | left | cleared => exact h
  | @heard hub frames written j peer hs hsessions hgroups =>
      have hij : i ≠ j := by
        rintro rfl
        rcases hseated.member hs with ⟨m, hm'⟩
        rw [hm] at hm'
        cases hm'
      exact (readingsOf_append_of_ne rfl (Reading.reader_of_mem_map j peer _) hij).trans h

/-!
# Runs
-/

theorem IsSeated.run (h : c.IsSeated) {ts : List (Socket × Turn)}
    (hworks : ∀ t ∈ ts, t.1.Works) : (c.run ts).IsSeated := by
  induction ts generalizing c with
  | nil => exact h
  | cons t ts ih =>
      apply ih
      · exact (turn_happens h (hworks t List.mem_cons_self) t.2).isSeated h
      · intro t' ht'
        exact hworks t' (List.mem_cons_of_mem t ht')

theorem isExact_run (capacity limit : Nat) {ts : List (Socket × Turn)} {i : Nat}
    (hworks : ∀ t ∈ ts, t.1.Works)
    (hkept : ∀ before, before <+: ts →
      ¬ ((ofLimits capacity limit).run before).hub.groups.IsOvertaken ⟨i⟩) :
    (((ofLimits capacity limit).run ts).members[i]? = none →
        ((ofLimits capacity limit).run ts).readingsOf i = []) ∧
      ∀ m, ((ofLimits capacity limit).run ts).members[i]? = some m →
        ((ofLimits capacity limit).run ts).IsExact i m := by
  -- The last turn is split off, since a session must not be overtaken at any moment before it.
  induction ts using List.reverseRecOn with
  | nil => exact ⟨fun _ => rfl, fun _ hm => by cases hm⟩
  | append_singleton ts t ih =>
      have hworks' : ∀ t' ∈ ts, t'.1.Works := fun t' ht' =>
        hworks t' (List.mem_append_left [t] ht')
      rcases ih hworks' fun before hbefore =>
        hkept before (hbefore.trans (List.prefix_append ts [t])) with ⟨hunknown, hexact⟩
      have hseated := (isSeated_ofLimits capacity limit).run hworks'
      have hbefore := hkept ts (List.prefix_append ts [t])
      have hafter := hkept (ts ++ [t]) (List.prefix_refl _)
      rw [run_append] at hafter ⊢
      generalize (ofLimits capacity limit).run ts = c at hunknown hexact hseated hbefore hafter
      have hhappens := turn_happens hseated (hworks t (by simp)) t.2
      change Happens c (c.run [t]) at hhappens
      cases hm : c.members[i]? with
      | none =>
          exact ⟨fun _ => hhappens.readingsOf_of_none hseated hm (hunknown hm),
            fun m hm' => hhappens.isExact_new hseated hm hm' (hunknown hm)⟩
      | some m =>
          have hkeeps := hhappens.member hm
          constructor
          · intro hnone
            rw [hkeeps] at hnone
            cases hnone
          · intro m' hm'
            rw [hkeeps] at hm'
            cases hm'
            exact hhappens.isExact hseated hm (hexact m hm) hbefore hafter

theorem reading?_of_isOpen (h : c.IsSeated) {i : Nat} (hopen : c.hub.isOpen i = true) :
    c.hub.groups.seat? ⟨i⟩ ≠ none ∧
      (c.hub.reading? i).map Reading.payload = (c.hub.groups.pending ⟨i⟩).head? := by
  rw [Hub.isOpen] at hopen
  split at hopen
  · rename_i s hs
    rcases h.member hs with ⟨m, hm⟩
    cases h.seated i s m hs hm with
    | closed => cases hopen
    | live peer hseat =>
        refine ⟨by rw [hseat]; exact Option.some_ne_none _, ?_⟩
        rw [Hub.reading?, hs]
        dsimp only
        rw [Option.map_map, ← Groups.receive_fst_eq_head?]
        cases (c.hub.groups.receive ⟨i⟩).1 <;> rfl
  · cases hopen

/-- As long as writes get through and a session is not overtaken, it has read what others posted in
its group since it came, from the first such post on, in order. It was delivered what it read but
for what was addressed to somebody else, and nothing else was written to it but the answers to its
own frames. As long as it is open the next post is read next. -/
theorem delivery_exact (capacity limit : Nat) (ts : List (Socket × Turn)) (i : Nat)
    (m : Membership) (hworks : ∀ t ∈ ts, t.1.Works)
    (hm : ((ofLimits capacity limit).run ts).members[i]? = some m)
    (hkept : ∀ before, before <+: ts →
      ¬ ((ofLimits capacity limit).run before).hub.groups.IsOvertaken ⟨i⟩) :
    let c := (ofLimits capacity limit).run ts
    (c.readingsOf i).map Reading.payload = (c.postsFor i m).take (c.readingsOf i).length ∧
      c.deliveredTo i =
        ((c.readingsOf i).filter fun r => ¬ IsForAnother r.peer r.payload).map
          (fun r => .frame r.payload) ∧
      c.answeredTo i = (c.framesOf i).flatMap (Incoming.answers limit) ∧
      (c.hub.isOpen i = true →
        (c.hub.reading? i).map Reading.payload =
          (c.postsFor i m)[(c.readingsOf i).length]?) := by
  intro c
  rcases (isExact_run capacity limit hworks hkept).right m hm with ⟨rest, hcomplete, hrest⟩
  have hseated : c.IsSeated := (isSeated_ofLimits capacity limit).run hworks
  have hwritten : c.IsWritten limit :=
    (isWritten_ofLimits capacity limit).run (isSeated_ofLimits capacity limit) hworks
  have hlength : ((c.readingsOf i).map Reading.payload).length = (c.readingsOf i).length :=
    List.length_map _
  refine ⟨?_, ?_, hwritten.answered i, ?_⟩
  · rw [hcomplete, ← hlength, List.take_left]
  · rw [hwritten.delivered i, passedOn]
    congr 1
    apply List.filter_congr
    intro r _
    rw [shouldDeliver_eq_not_isForAnother, decide_not]
  · intro hopen
    rcases reading?_of_isOpen hseated hopen with ⟨hseat, hnext⟩
    rw [hnext, hrest hseat, hcomplete, ← hlength, List.getElem?_append_right (Nat.le_refl _),
      Nat.sub_self, List.head?_eq_getElem?]

/-- Three come to two groups, one comes back to an empty group, pings it and posts there itself, and
hears the others. -/
theorem delivery_exact_of_three :
    let socket : Socket := fun _ => none
    let ping : List UInt8 := List.replicate 24 0
    let ts : List (Socket × Turn) :=
      [.go (.connect ⟨"one"⟩ none), .part 0 .ended, .go (.connect ⟨"one"⟩ none), .clear 0,
        .go (.connect ⟨"two"⟩ none), .go (.connect ⟨"one"⟩ none), .go (.read 2 (.binary [2])),
        .go (.read 1 (.binary ping)), .go (.read 1 (.binary [1])), .go (.read 3 (.binary [3])),
        .go (.hear 1), .go (.read 3 (.binary [4]))].map fun t => (socket, t)
    let c := (ofLimits 4 24).run ts
    (c.readingsOf 1).map Reading.payload = [.binary [3]] ∧
      (c.readingsOf 1).map Reading.payload =
        (c.postsFor 1 ⟨⟨"one"⟩, 0⟩).take (c.readingsOf 1).length ∧
      c.deliveredTo 1 = [.frame (.binary [3])] ∧
      c.answeredTo 1 = [.frame (.text (Pong.ofTime (Event.pingTime ping)).write)] ∧
      (c.hub.reading? 1).map Reading.payload =
        (c.postsFor 1 ⟨⟨"one"⟩, 0⟩)[(c.readingsOf 1).length]? := by
  intro socket ping ts c
  have hworks : ∀ t ∈ ts, t.1.Works := by
    intro t ht
    rcases List.mem_map.mp ht with ⟨_, _, rfl⟩
    exact fun _ => rfl
  have hkept : ∀ before, before <+: ts →
      ¬ ((ofLimits 4 24).run before).hub.groups.IsOvertaken ⟨1⟩ := by
    intro before hbefore
    rw [← List.mem_inits] at hbefore
    revert before
    decide +kernel
  rcases delivery_exact 4 24 ts 1 ⟨⟨"one"⟩, 0⟩ hworks rfl hkept with
    ⟨hread, hdelivered, hanswered, hnext⟩
  have hframes : c.framesOf 1 = [.binary ping, .binary [1]] := by decide +kernel
  refine ⟨by decide +kernel, hread, ?_, ?_, hnext (by decide +kernel)⟩
  · rw [hdelivered]
    decide +kernel
  · rw [hanswered, hframes]
    rfl

end Chronicle
end Relay
end Parley
