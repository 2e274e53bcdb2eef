import Parley.Proofs.Translation.Attempt
import Parley.Translation.Schedule

/-!
# Jobs on a schedule

A schedule runs a job by itself: it makes the calls in turn, sends all chunks at once,
restamps the lock while they are out and receives them as they come back. Whatever the
store and the backend say, that is an attempt at the job in which nobody else takes a
turn, and it comes to its end.
-/

namespace Parley
namespace Translation

variable {σ : Type}

/-- Behind these calls there is a store. They are calls on it, at any time, or fail and change
nothing, and only giving locks back always succeeds. -/
structure Access.IsOn (access : Access σ) (view : σ → Store) : Prop where
  refresh : ∀ key token x, ∃ failure? now,
    (mayFail now failure?).refresh key token (view x) =
      ((access.refresh key token x).1, view (access.refresh key token x).2)
  has : ∀ key x, ∃ failure?, ∀ now,
    (mayFail now failure?).has key (view x) = ((access.has key x).1, view (access.has key x).2)
  insert : ∀ e x, ∃ failure?, ∀ now,
    (mayFail now failure?).insert e (view x) =
      ((access.insert e x).1, view (access.insert e x).2)
  unlock : ∀ key token x,
    (view x).unlock key token =
      ((access.unlock key token x).1, view (access.unlock key token x).2)

theorem Access.isOn_mayFail (now : Int) (failure? : Option StoreError) :
    (mayFail now failure?).IsOn id where
  refresh _ _ _ := ⟨failure?, now, rfl⟩
  has _ _ := ⟨failure?, fun _ => by cases failure? <;> rfl⟩
  insert _ _ := ⟨failure?, fun _ => by cases failure? <;> rfl⟩
  unlock _ _ _ := by rw [unlock_eq]; rfl

theorem Stage.exists_call {access : Access σ} {view : σ → Store} (h : access.IsOn view)
    {w : Windows} {now : Int} {j : Job} {stage : Stage} {x x' : σ} {news : News}
    (hcall : stage.call access w now j x = some (news, x')) :
    ∃ failure? now', stage.call (.mayFail now' failure?) w now' j (view x) =
      some (news, view x') := by
  cases stage with
  | starting =>
      cases hcall
      rcases h.refresh j.key j.token x with ⟨failure?, now', heq⟩
      exact ⟨failure?, now', by rw [Stage.call, heq]⟩
  | checking =>
      cases hcall
      rcases h.has j.key x with ⟨failure?, heq⟩
      exact ⟨failure?, now, by rw [Stage.call, heq now]⟩
  | saving outputs =>
      cases hcall
      rcases h.insert (j.entry w now outputs) x with ⟨failure?, heq⟩
      exact ⟨failure?, now, by rw [Stage.call, heq now]⟩
  | releasing outcome =>
      cases hcall
      refine ⟨none, now, ?_⟩
      rw [Stage.call, Access.unlock_eq, h.unlock]
  | translating | ended => cases hcall

/-!
# Places on the way
-/

namespace Stage

def isPast : Stage → Bool
  | .saving _ | .releasing _ | .ended _ => true
  | .starting | .checking | .translating _ => false

theorem awaits_translating_iff {replies : List (Option Reply)} {chunk : Nat} :
    (translating replies).awaits chunk = true ↔ replies[chunk]? = some none := by
  refine ⟨getElem?_of_awaits, ?_⟩
  intro hnone
  rw [awaits, hnone]

theorem ofVerdict_cases (replies : List (Option Reply)) :
    ofVerdict replies = .translating replies ∧ verdict replies = .waiting ∨
      (ofVerdict replies).isPast = true := by
  rw [ofVerdict]
  cases hverdict : verdict replies with
  | waiting => exact Or.inl ⟨rfl, rfl⟩
  | failed | whole => exact Or.inr rfl

theorem turnsLeft_of_isPast {stage : Stage} (h : stage.isPast = true) (chunks : Nat) :
    stage.turnsLeft chunks ≤ 2 := by
  cases stage with
  | saving | releasing | ended => simp [turnsLeft]
  | starting | checking | translating => cases h

end Stage

namespace Run

variable {st : Setting σ} {view : σ → Store} {j : Job} {s : Store} {counters : Counters}
  {r : Run σ} {chunks time : Nat}

def IsAttempt (st : Setting σ) (view : σ → Store) (j : Job) (s : Store) (counters : Counters)
    (r : Run σ) : Prop :=
  ∃ ts, ts.filterMap Attempt.Turn.others? = [] ∧
    (Attempt.run st.windows j s counters ts).stage = r.stage ∧
    (Attempt.run st.windows j s counters ts).store = view r.store

theorem IsAttempt.turn (h : IsAttempt st view j s counters r) {t : Attempt.Turn}
    (ht : t.others? = none) {r' : Run σ}
    (hturn : ∀ a : Attempt, a.stage = r.stage → a.store = view r.store →
      (a.turn st.windows j t).stage = r'.stage ∧ (a.turn st.windows j t).store = view r'.store) :
    IsAttempt st view j s counters r' := by
  rcases h with ⟨ts, hown, hstage, hstore⟩
  have hrun : Attempt.run st.windows j s counters (ts ++ [t]) =
      (Attempt.run st.windows j s counters ts).turn st.windows j t :=
    List.foldl_append
  refine ⟨ts ++ [t], ?_, ?_⟩
  · rw [List.filterMap_append, hown, List.filterMap_cons, ht]
    rfl
  · rw [hrun]
    exact hturn _ hstage hstore

/-!
# Calls
-/

theorem stage_tell (r : Run σ) (chunks : Nat) (news : News) :
    (r.tell chunks news).stage = r.stage.next chunks news :=
  rfl

theorem isWaiting_iff : r.isWaiting = true ↔ ∃ replies, r.stage = .translating replies := by
  rw [isWaiting]
  cases r.stage <;> simp

theorem call_cases (st : Setting σ) (j : Job) (chunks time : Nat) (r : Run σ) :
    r.stage.call st.access st.windows st.now j r.store = none ∧ r.call st j chunks time = r ∨
      ∃ news x, r.stage.call st.access st.windows st.now j r.store = some (news, x) ∧
        (r.call st j chunks time).stage = r.stage.next chunks news ∧
        (r.call st j chunks time).store = x := by
  rcases r with ⟨stage, x, notes⟩
  cases stage with
  | translating | ended => exact Or.inl ⟨rfl, rfl⟩
  | starting | checking | saving | releasing => exact Or.inr ⟨_, _, rfl, rfl, rfl⟩

theorem IsAttempt.call (h : IsAttempt st view j s counters r) (hon : st.access.IsOn view)
    (time : Nat) :
    IsAttempt st view j s counters
      (r.call st j (j.document st.windows).chunks.length time) := by
  rcases call_cases st j (j.document st.windows).chunks.length time r with
    ⟨_, hsame⟩ | ⟨news, x, hcall, hstage, hstore⟩
  · rw [hsame]
    exact h
  · rcases Stage.exists_call hon hcall with ⟨failure?, now, hview⟩
    refine h.turn (t := .call failure? now) rfl ?_
    intro a hastage hastore
    rw [Attempt.turn, hastage, hastore, hview, hstage, hstore, ← hastage]
    exact ⟨rfl, rfl⟩

theorem IsAttempt.hear (h : IsAttempt st view j s counters r) {chunk : Nat}
    (hout : r.stage.awaits chunk = true) (reply : Reply) :
    IsAttempt st view j s counters
      (r.tell (j.document st.windows).chunks.length (.translated chunk reply)) := by
  refine h.turn (t := .hear chunk reply) rfl ?_
  intro a hstage hstore
  rw [Attempt.turn, hstage, if_pos hout, stage_tell, ← hstage]
  exact ⟨rfl, hstore⟩

/-!
# Chunks that are out
-/

/-- The run is past its chunks or waits for some, and then these are out. -/
structure IsOut (st : Setting σ) (view : σ → Store) (j : Job) (s : Store) (counters : Counters)
    (out : Nat → Prop) (r : Run σ) : Prop where
  attempt : IsAttempt st view j s counters r
  place : r.isWaiting = true ∨ r.stage.isPast = true
  some_out : r.isWaiting = true → ∃ chunk, r.stage.awaits chunk = true
  awaits_iff : r.isWaiting = true → ∀ chunk, r.stage.awaits chunk = true ↔ out chunk

variable {out out' : Nat → Prop}

theorem not_isWaiting_of_isPast (h : r.stage.isPast = true) : ¬ r.isWaiting = true := by
  intro hwaiting
  rcases isWaiting_iff.mp hwaiting with ⟨replies, hstage⟩
  rw [hstage] at h
  cases h

theorem isOut_of_isPast (h : IsAttempt st view j s counters r) (hpast : r.stage.isPast = true) :
    IsOut st view j s counters out r where
  attempt := h
  place := Or.inr hpast
  some_out hwaiting := absurd hwaiting (not_isWaiting_of_isPast hpast)
  awaits_iff hwaiting := absurd hwaiting (not_isWaiting_of_isPast hpast)

theorem isOut_of_ofVerdict (h : IsAttempt st view j s counters r)
    {replies : List (Option Reply)} (hstage : r.stage = .ofVerdict replies)
    (hout : ∀ chunk : Nat, replies[chunk]? = some none ↔ out chunk) :
    IsOut st view j s counters out r := by
  rcases Stage.ofVerdict_cases replies with ⟨htranslating, hverdict⟩ | hpast
  · rw [htranslating] at hstage
    refine ⟨h, Or.inl (isWaiting_iff.mpr ⟨replies, hstage⟩), ?_, ?_⟩
    · intro _
      rcases exists_none_of_waiting hverdict with ⟨chunk, hnone⟩
      exact ⟨chunk, by rw [hstage, Stage.awaits_translating_iff]; exact hnone⟩
    · intro _ chunk
      rw [hstage, Stage.awaits_translating_iff]
      exact hout chunk
  · exact isOut_of_isPast h (by rw [hstage]; exact hpast)

theorem IsOut.congr (h : IsOut st view j s counters out r)
    (hsame : ∀ chunk, out chunk ↔ out' chunk) :
    IsOut st view j s counters out' r :=
  ⟨h.attempt, h.place, h.some_out,
    fun hwaiting chunk => (h.awaits_iff hwaiting chunk).trans (hsame chunk)⟩

theorem IsOut.hear (h : IsOut st view j s counters out r) (hwaiting : r.isWaiting = true)
    {chunk : Nat} (hchunk : out chunk) (reply : Reply) :
    IsOut st view j s counters (fun k => out k ∧ k ≠ chunk)
      (r.tell (j.document st.windows).chunks.length (.translated chunk reply)) := by
  have hout := (h.awaits_iff hwaiting chunk).mpr hchunk
  rcases isWaiting_iff.mp hwaiting with ⟨replies, hstage⟩
  have hiff := h.awaits_iff hwaiting
  rw [hstage] at hiff
  have hnext : (r.tell (j.document st.windows).chunks.length (.translated chunk reply)).stage =
      .ofVerdict (replies.set chunk (some reply)) := by
    rw [stage_tell, hstage]
    rfl
  refine isOut_of_ofVerdict (h.attempt.hear hout reply) hnext ?_
  intro k
  rw [← hiff k, Stage.awaits_translating_iff, List.getElem?_set]
  by_cases hk : chunk = k
  · subst hk
    rw [if_pos rfl]
    split <;> simp
  · rw [if_neg hk]
    exact ⟨fun hnone => ⟨hnone, Ne.symm hk⟩, And.left⟩

/-!
# Restamping
-/

def restampOnce (st : Setting σ) (j : Job) (chunks time : Nat) (r : Run σ) : Run σ :=
  (({ r with store := (restamp st.access j r.store).2 } : Run σ).note time .refreshed).tell chunks
    (restamp st.access j r.store).1

theorem restamps_succ (st : Setting σ) (j : Job) (chunks start n k : Nat) (r : Run σ) :
    restamps st j chunks start (n + 1) k r =
      if (r.restampOnce st j chunks (start + k * restampInterval)).isWaiting then
        restamps st j chunks start n (k + 1)
          (r.restampOnce st j chunks (start + k * restampInterval))
      else
        (r.restampOnce st j chunks (start + k * restampInterval), start + k * restampInterval) :=
  rfl

theorem IsAttempt.restampOnce (h : IsAttempt st view j s counters r)
    (hon : st.access.IsOn view) (hwaiting : r.isWaiting = true) (time : Nat) :
    IsAttempt st view j s counters
      (r.restampOnce st j (j.document st.windows).chunks.length time) := by
  rcases hon.refresh j.key j.token r.store with ⟨failure?, now, heq⟩
  refine h.turn (t := .restamp failure? now) rfl ?_
  intro a hstage hstore
  have hrunning : a.stage.isRunning = true := by
    rcases isWaiting_iff.mp hwaiting with ⟨replies, htranslating⟩
    rw [hstage, htranslating]
    rfl
  rw [Attempt.turn, if_pos hrunning, hstore, Translation.restamp, heq]
  refine ⟨?_, rfl⟩
  show a.stage.next _ _ = r.stage.next _ _
  rw [hstage]
  rfl

theorem IsOut.restampOnce (h : IsOut st view j s counters out r) (hon : st.access.IsOn view)
    (hwaiting : r.isWaiting = true) (time : Nat) :
    IsOut st view j s counters out
      (r.restampOnce st j (j.document st.windows).chunks.length time) := by
  have hattempt := h.attempt.restampOnce hon hwaiting time
  rcases isWaiting_iff.mp hwaiting with ⟨replies, htranslating⟩
  have hstage : (r.restampOnce st j (j.document st.windows).chunks.length time).stage =
      r.stage.next (j.document st.windows).chunks.length
        (.restamped (st.access.refresh j.key j.token r.store).1) :=
    rfl
  have hkept : (r.restampOnce st j (j.document st.windows).chunks.length time).stage = r.stage →
      IsOut st view j s counters out
        (r.restampOnce st j (j.document st.windows).chunks.length time) := by
    intro hsame
    refine ⟨hattempt, ?_, ?_, ?_⟩
    · exact Or.inl (isWaiting_iff.mpr ⟨replies, hsame.trans htranslating⟩)
    · intro _
      rw [hsame]
      exact h.some_out hwaiting
    · intro _
      rw [hsame]
      exact h.awaits_iff hwaiting
  rcases hresult : (st.access.refresh j.key j.token r.store).1 with error | _ | _
  · exact hkept (by rw [hstage, hresult, Stage.next_restamped_error])
  · refine isOut_of_isPast hattempt ?_
    rw [hstage, hresult, htranslating]
    rfl
  · exact hkept (by rw [hstage, hresult, Stage.next_restamped_true])

theorem IsOut.restamps {n : Nat} (h : IsOut st view j s counters out r)
    (hon : st.access.IsOn view) (hwaiting : r.isWaiting = true) (start k : Nat) :
    IsOut st view j s counters out
      (r.restamps st j (j.document st.windows).chunks.length start n k).1 := by
  induction n generalizing r k with
  | zero => exact h
  | succ n ih =>
      have hnext := h.restampOnce hon hwaiting (start + k * restampInterval)
      rw [restamps_succ]
      split
      · rename_i hstill
        exact ih hnext hstill (k + 1)
      · exact hnext

/-!
# Sending and receiving
-/

theorem insertDue_perm (d : Due) (due : List Due) : (insertDue d due).Perm (d :: due) := by
  induction due with
  | nil => exact .refl _
  | cons e rest ih =>
      rw [insertDue]
      split
      · exact .refl _
      · exact (ih.cons e).trans (.swap d e rest)

theorem index_insertDue_perm (d : Due) (due : List Due) :
    ((insertDue d due).map Due.index).Perm (d.index :: due.map Due.index) :=
  (insertDue_perm d due).map Due.index

theorem IsOut.note (h : IsOut st view j s counters out r) (time : Nat) (what : Happening) :
    IsOut st view j s counters out (r.note time what) :=
  ⟨h.attempt, h.place, h.some_out, h.awaits_iff⟩

theorem IsOut.isPast (h : IsOut st view j s counters out r) (hwaiting : ¬ r.isWaiting = true) :
    r.stage.isPast = true :=
  h.place.resolve_left hwaiting

def IsToCome (due : List Due) (first unsent : Nat) (chunk : Nat) : Prop :=
  chunk ∈ due.map Due.index ∨ first ≤ chunk ∧ chunk < first + unsent

theorem IsOut.send {chunks : List String} {due : List Due} {i : Nat}
    (h : IsOut st view j s counters (IsToCome due i chunks.length) r)
    (hdue : (due.map Due.index).Nodup) (hsent : ∀ k ∈ due.map Due.index, k < i) (time : Nat) :
    let sent := r.send st j (j.document st.windows).chunks.length time i chunks due
    IsOut st view j s counters (fun k => k ∈ sent.2.map Due.index) sent.1 ∧
      (sent.2.map Due.index).Nodup := by
  induction chunks generalizing i due r with
  | nil =>
      refine ⟨h.congr ?_, hdue⟩
      intro k
      refine ⟨?_, Or.inl⟩
      rintro (hmem | ⟨hle, hlt⟩)
      · exact hmem
      · exact absurd hlt (Nat.not_lt.mpr hle)
  | cons chunk rest ih =>
      have hcount : i + (chunk :: rest).length = i + 1 + rest.length := by
        rw [List.length_cons, Nat.add_right_comm, Nat.add_assoc]
      dsimp only
      rw [Run.send]
      split
      · rename_i hwaiting
        have hnote := h.note time (.sent chunk)
        dsimp only
        split
        · have hi : IsToCome due i (chunk :: rest).length i :=
            Or.inr ⟨Nat.le_refl i, Nat.lt_add_of_pos_right (Nat.succ_pos _)⟩
          refine ih ((hnote.hear hwaiting hi _).congr ?_) hdue
            fun k hk => Nat.lt_succ_of_lt (hsent k hk)
          intro k
          have hold := hsent k
          rw [IsToCome, IsToCome, hcount]
          grind
        · have hperm := index_insertDue_perm ⟨time + st.timing.delay chunk, i, chunk⟩ due
          refine ih (hnote.congr ?_) ?_ ?_
          · intro k
            rw [IsToCome, IsToCome, hcount, hperm.mem_iff, List.mem_cons]
            grind
          · rw [hperm.nodup_iff, List.nodup_cons]
            exact ⟨fun hmem => Nat.lt_irrefl i (hsent i hmem), hdue⟩
          · intro k hk
            rcases List.mem_cons.mp (hperm.mem_iff.mp hk) with rfl | hold
            · exact Nat.lt_succ_self _
            · exact Nat.lt_succ_of_lt (hsent k hold)
      · rename_i hpast
        exact ⟨isOut_of_isPast h.attempt (h.isPast hpast), hdue⟩

theorem IsOut.receive {due : List Due}
    (h : IsOut st view j s counters (fun k => k ∈ due.map Due.index) r)
    (hdue : (due.map Due.index).Nodup) (hon : st.access.IsOn view)
    (hwaiting : r.isWaiting = true) (start done : Nat) :
    let got := r.receive st j (j.document st.windows).chunks.length start done due
    IsAttempt st view j s counters got.1 ∧ got.1.stage.isPast = true := by
  induction due generalizing r done with
  | nil =>
      rcases h.some_out hwaiting with ⟨chunk, hout⟩
      cases (h.awaits_iff hwaiting chunk).mp hout
  | cons d rest ih =>
      rw [List.map_cons, List.nodup_cons] at hdue
      have hstamped := h.restamps (n := restampsBefore start d.time - done) hon hwaiting start
        (done + 1)
      dsimp only
      rw [Run.receive]
      dsimp only
      split
      · rename_i hstill
        have hheard := (hstamped.note d.time (.back d.chunk)).hear hstill
          List.mem_cons_self (Run.reply st j d.chunk)
        split
        · rename_i hmore
          refine ih (hheard.congr ?_) hdue.right hmore _
          intro k
          rw [List.map_cons, List.mem_cons]
          constructor
          · rintro ⟨rfl | hmem, hne⟩
            · exact absurd rfl hne
            · exact hmem
          · intro hmem
            refine ⟨Or.inr hmem, ?_⟩
            rintro rfl
            exact hdue.left hmem
        · rename_i hpast
          exact ⟨hheard.attempt, hheard.isPast hpast⟩
      · rename_i hpast
        exact ⟨hstamped.attempt, hstamped.isPast hpast⟩

/-!
# From the start to the end
-/

theorem calls_eq (st : Setting σ) (j : Job) (chunks time : Nat) (r : Run σ) :
    r.calls st j chunks time =
      (((r.call st j chunks time).call st j chunks time).call st j chunks time).call st j chunks
        time :=
  rfl

theorem isPast_call (h : r.stage.isPast = true) (st : Setting σ) (j : Job) (chunks time : Nat) :
    (r.call st j chunks time).stage.isPast = true := by
  rcases call_cases st j chunks time r with ⟨_, hsame⟩ | ⟨news, x, hcall, hstage, _⟩
  · rw [hsame]
    exact h
  · rw [hstage]
    generalize r.stage = stage at h hcall
    cases stage with
    | saving outputs =>
        cases hcall
        generalize (st.access.insert (j.entry st.windows st.now outputs) r.store).1 = result
        rcases result with error | _ | _ <;> rfl
    | releasing outcome =>
        cases hcall
        rfl
    | ended => cases hcall
    | starting | checking | translating => cases h

theorem turnsLeft_call (h : r.stage.isPast = true) (st : Setting σ) (j : Job)
    (chunks time : Nat) :
    (r.call st j chunks time).stage.turnsLeft chunks ≤ r.stage.turnsLeft chunks - 1 := by
  rcases call_cases st j chunks time r with ⟨hnone, hsame⟩ | ⟨news, x, hcall, hstage, _⟩
  · rw [hsame]
    generalize r.stage = stage at h hnone
    cases stage with
    | ended => exact Nat.le_refl 0
    | saving | releasing => cases hnone
    | starting | checking | translating => cases h
  · rw [hstage]
    exact Nat.le_sub_of_add_le (Stage.turnsLeft_call hcall chunks).left

theorem exists_ended_calls (h : r.stage.isPast = true) (st : Setting σ) (j : Job)
    (chunks time : Nat) : ∃ outcome, (r.calls st j chunks time).stage = .ended outcome := by
  apply Stage.ended_of_turnsLeft chunks
  have hstart := Stage.turnsLeft_of_isPast h chunks
  have hfirst := isPast_call h st j chunks time
  have hsecond := isPast_call hfirst st j chunks time
  have hthird := isPast_call hsecond st j chunks time
  rw [calls_eq]
  have h1 := turnsLeft_call h st j chunks time
  have h2 := turnsLeft_call hfirst st j chunks time
  have h3 := turnsLeft_call hsecond st j chunks time
  have h4 := turnsLeft_call hthird st j chunks time
  omega

theorem IsOut.call (h : IsOut st view j s counters out r) (hon : st.access.IsOn view)
    (time : Nat) :
    IsOut st view j s counters out (r.call st j (j.document st.windows).chunks.length time) := by
  by_cases hwaiting : r.isWaiting = true
  · have hsame : r.call st j (j.document st.windows).chunks.length time = r := by
      rcases isWaiting_iff.mp hwaiting with ⟨replies, hstage⟩
      rw [Run.call, hstage]
      rfl
    rw [hsame]
    exact h
  · exact isOut_of_isPast (h.attempt.call hon time) (isPast_call (h.isPast hwaiting) st j _ time)

theorem IsAttempt.isOut_call (h : IsAttempt st view j s counters r) (hon : st.access.IsOn view)
    (hstage : r.stage = .checking) (time : Nat) :
    IsOut st view j s counters (· < (j.document st.windows).chunks.length)
      (r.call st j (j.document st.windows).chunks.length time) := by
  have hattempt := h.call hon time
  rcases call_cases st j (j.document st.windows).chunks.length time r with
    ⟨hnone, _⟩ | ⟨news, x, hcall, hnext, _⟩
  · rw [hstage] at hnone
    cases hnone
  · rw [hstage] at hcall hnext
    cases hcall
    rcases hresult : (st.access.has j.key r.store).1 with error | _ | _
    · exact isOut_of_isPast hattempt (by rw [hnext, hresult]; rfl)
    · refine isOut_of_ofVerdict hattempt (by rw [hnext, hresult]; rfl) ?_
      intro chunk
      rw [List.getElem?_replicate]
      split <;> simp_all
    · exact isOut_of_isPast hattempt (by rw [hnext, hresult]; rfl)

theorem IsAttempt.isOut_calls (h : IsAttempt st view j s counters r)
    (hon : st.access.IsOn view) (hstage : r.stage = .starting) (time : Nat) :
    IsOut st view j s counters (· < (j.document st.windows).chunks.length)
      (r.calls st j (j.document st.windows).chunks.length time) := by
  have hattempt := h.call hon time
  rw [calls_eq]
  rcases call_cases st j (j.document st.windows).chunks.length time r with
    ⟨hnone, _⟩ | ⟨news, x, hcall, hnext, _⟩
  · rw [hstage] at hnone
    cases hnone
  · rw [hstage] at hcall hnext
    cases hcall
    refine IsOut.call (IsOut.call ?_ hon time) hon time
    rcases hresult : (st.access.refresh j.key j.token r.store).1 with error | _ | _
    · exact (isOut_of_isPast hattempt (by rw [hnext, hresult]; rfl)).call hon time
    · exact (isOut_of_isPast hattempt (by rw [hnext, hresult]; rfl)).call hon time
    · exact hattempt.isOut_call hon (by rw [hnext, hresult]; rfl) time

theorem IsAttempt.calls (h : IsAttempt st view j s counters r) (hon : st.access.IsOn view)
    (time : Nat) :
    IsAttempt st view j s counters
      (r.calls st j (j.document st.windows).chunks.length time) :=
  (((h.call hon time).call hon time).call hon time).call hon time

/-- A schedule attempts a job by itself, brings it to its end, and has an outcome to count. -/
theorem ofJob_attempts (hon : st.access.IsOn view) (j : Job) (start : Nat) (x : σ)
    (counters : Counters) :
    ∃ ts outcome, ts.filterMap Attempt.Turn.others? = [] ∧
      (ofJob st j start x).1.stage = .ended outcome ∧
      let a := Attempt.run st.windows j (view x) counters ts
      a.stage = .ended outcome ∧ a.store = view (ofJob st j start x).1.store ∧
        a.counters = counters.add outcome := by
  have hstart : IsAttempt st view j (view x) counters ⟨.starting, x, []⟩ := ⟨[], rfl, rfl, rfl⟩
  have hunsent : IsOut st view j (view x) counters
      (IsToCome [] 0 (j.document st.windows).chunks.length)
      (Run.calls st j (j.document st.windows).chunks.length start ⟨.starting, x, []⟩) :=
    (hstart.isOut_calls hon rfl start).congr fun k => by simp [IsToCome]
  rcases hunsent.send List.nodup_nil (by simp) start with ⟨hsent, hdue⟩
  have hends : IsAttempt st view j (view x) counters (ofJob st j start x).1 ∧
      ∃ outcome, (ofJob st j start x).1.stage = .ended outcome := by
    rw [ofJob]
    dsimp only
    split
    · rename_i hwaiting
      rcases hsent.receive hdue hon hwaiting start 0 with ⟨hattempt, hpast⟩
      exact ⟨hattempt.calls hon _, exists_ended_calls hpast st j _ _⟩
    · rename_i hpast
      exact ⟨hsent.attempt.calls hon start, exists_ended_calls (hsent.isPast hpast) st j _ start⟩
  rcases hends with ⟨⟨ts, hown, hstage, hstore⟩, outcome, hended⟩
  have hcounted := Attempt.isCounted_run st.windows j (view x) counters ts
  rw [Attempt.IsCounted, hstage, hended] at hcounted
  exact ⟨ts, outcome, hown, hended, hstage.trans hended, hstore, hcounted⟩

end Run
end Translation
end Parley
