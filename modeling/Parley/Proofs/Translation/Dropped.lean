import Parley.Proofs.Translation.Holder

/-!
# Jobs that a worker leaves behind

A worker that is switched off stops before it has taken anything, but it may do so
after requests have come. It then leaves the queue to nobody, and what waits in the
queue is dropped with the locks that were taken for it. As no sweep comes these
locks stay: when all requests have their answers, the locks are those of the jobs
that were dropped, and no others.
-/

namespace Parley
namespace Translation

namespace Office

variable {o : Office} {w : Windows} {lost : List Job}

/-!
# Offices without a worker
-/

structure IsUnmanned (o : Office) : Prop where
  phase : o.worker.phase = .stopped
  hand : o.worker.inHand = none
  tasks : o.tasks = []
  closed : o.desk.queue.isOpen = false → o.desk.queue.jobs = []

theorem isUnmanned_ofCache (cache : Cache) (capacity slots : Nat) :
    (ofCache cache capacity false slots).IsUnmanned where
  phase := rfl
  hand := rfl
  tasks := rfl
  closed hclosed := by cases hclosed

theorem IsUnmanned.move (h : o.IsUnmanned) (m : Move) :
    (o.move w m).IsUnmanned ∧
      (o.desk.queue.isOpen = false → (o.move w m).desk.queue.isOpen = false) := by
  have htasks : ∀ i : Nat, o.tasks[i]? = none := by
    intro i
    rw [h.tasks]
    rfl
  have hstays : ∀ o' : Office, o' = o →
      o'.IsUnmanned ∧ (o.desk.queue.isOpen = false → o'.desk.queue.isOpen = false) := by
    rintro o' rfl
    exact ⟨h, id⟩
  cases m with
  | come r => exact ⟨⟨h.phase, h.hand, h.tasks, h.closed⟩, id⟩
  | proceed errand now =>
      rcases o.proceed_eq errand now with hsame | ⟨e, _, heq⟩
      · exact hstays _ hsame
      · rw [Office.move, heq]
        rcases Asking.queue_step now e.request e.stage o.desk with hqueue | ⟨hopen, token, hqueue⟩
        · refine ⟨⟨h.phase, h.hand, h.tasks, ?_⟩, ?_⟩
          · dsimp only
            rw [hqueue]
            exact h.closed
          · dsimp only
            rw [hqueue]
            exact id
        · have hno : ∀ {p : Prop}, o.desk.queue.isOpen = false → p := by
            intro p hclosed
            rw [hopen] at hclosed
            cases hclosed
          refine ⟨⟨h.phase, h.hand, h.tasks, ?_⟩, hno⟩
          dsimp only
          rw [hqueue]
          exact hno
  | take =>
      apply hstays
      simp only [Office.move, Office.take, Worker.take?, h.phase]
  | start =>
      apply hstays
      simp only [Office.move, Office.start, Worker.start?, h.hand]
  | shut =>
      rw [Office.move, shut, if_pos h.phase]
      exact ⟨⟨h.phase, h.hand, h.tasks, fun _ => rfl⟩, fun _ => rfl⟩
  | call task now =>
      apply hstays
      rw [Office.move, Office.call, htasks]
  | restamp task now =>
      apply hstays
      rw [Office.move, Office.restamp, htasks]
  | post task chunk =>
      apply hstays
      rw [Office.move, Office.post, htasks]
  | hear task chunk reply =>
      apply hstays
      rw [Office.move, Office.hear, htasks]
  | sweep cutoff => exact ⟨⟨h.phase, h.hand, h.tasks, h.closed⟩, id⟩

/-!
# Locks of jobs that were dropped
-/

/-- The locks are those of the jobs in flight and of the jobs that were lost. -/
structure HoldsFor (lost : List Job) (o : Office) : Prop where
  whole : o.store.IsWhole
  exclusive : o.store.locks.Exclusive
  holds : o.store.locks.holds.Perm ((o.flights ++ lost).map Job.hold)

theorem holdsFor_ofCache (cache : Cache) (capacity : Nat) (enabled : Bool) (slots : Nat) :
    HoldsFor [] (ofCache cache capacity enabled slots) where
  whole := ⟨rfl, rfl⟩
  exclusive := Locks.exclusive_empty
  holds := .refl _

theorem Shift.beside {rs : List Request} {ls ls' : Locks} {fs fs' : List Job}
    (hshift : Shift rs ls fs ls' fs') (lost : List Job) :
    Shift rs ls (fs ++ lost) ls' (fs' ++ lost) := by
  cases hshift with
  | idle hfs => exact .idle (hfs.append_right lost)
  | refused key now hheld hfs => exact .refused key now hheld (hfs.append_right lost)
  | taken r now hr hfree hfs => exact .taken r now hr hfree (hfs.append_right lost)
  | stamped j now howns hfs => exact .stamped j now howns (hfs.append_right lost)
  | lost j now howns hfs => exact .lost j now howns (hfs.append_right lost)
  | released j hfs => exact .released j (hfs.append_right lost)

theorem Shift.exact {rs : List Request} {ls ls' : Locks} {fs fs' : List Job}
    (hshift : Shift rs ls fs ls' fs') (hexclusive : ls.Exclusive)
    (hholds : ls.holds.Perm (fs.map Job.hold)) :
    ls'.Exclusive ∧ ls'.holds.Perm (fs'.map Job.hold) := by
  cases hshift with
  | idle hfs => exact ⟨hexclusive, hholds.trans (hfs.map Job.hold).symm⟩
  | refused key now hheld hfs =>
      refine ⟨hexclusive.take, ?_⟩
      rw [Locks.holds_take_of_held hheld]
      exact hholds.trans (hfs.map Job.hold).symm
  | taken r now _ hfree hfs =>
      refine ⟨hexclusive.take, ?_⟩
      rw [Locks.holds_take_of_free hfree]
      exact (hholds.cons _).trans (hfs.map Job.hold).symm
  | stamped j now howns hfs =>
      refine ⟨hexclusive.refresh, ?_⟩
      rw [Locks.holds_refresh]
      exact hholds.trans (hfs.map Job.hold).symm
  | lost j now howns hfs =>
      have hmem : j.hold ∈ ls.holds :=
        hholds.mem_iff.mpr (List.mem_map_of_mem (hfs.mem_iff.mpr List.mem_cons_self))
      rw [Locks.owns_iff.mpr hmem] at howns
      cases howns
  | released j hfs =>
      refine ⟨hexclusive.release, ?_⟩
      have hnodup : ls.holds.Nodup := List.Nodup.of_map Prod.fst hexclusive
      rw [Locks.holds_release_eq_erase hnodup]
      have hcons : ls.holds.Perm (j.hold :: fs'.map Job.hold) :=
        hholds.trans (hfs.map Job.hold)
      exact (hcons.erase j.hold).trans (.of_eq (List.erase_cons_head ..))

theorem HoldsFor.move (h : HoldsFor lost o) {m : Move} (hsweep : m.isSweep = false)
    (hshut : m ≠ .shut) : HoldsFor lost (o.move w m) := by
  have hshift := (shift_move w h.whole hsweep hshut).beside lost
  have hexact := hshift.exact h.exclusive h.holds
  exact ⟨isWhole_move w h.whole m, hexact.left, hexact.right⟩

theorem flights_shut_of_stopped (h : o.worker.phase = .stopped) :
    o.flights.Perm (o.shut.flights ++ o.desk.queue.jobs) := by
  rw [shut, if_pos h]
  apply List.perm_iff_count.mpr
  intro j
  rw [List.count_append, count_flights, count_flights]
  simp only [Queue.close, List.count_nil]
  omega

theorem HoldsFor.shut (h : HoldsFor lost o) (hphase : o.worker.phase = .stopped) :
    HoldsFor (o.desk.queue.jobs ++ lost) o.shut := by
  have hperm : (o.flights ++ lost).Perm (o.shut.flights ++ (o.desk.queue.jobs ++ lost)) := by
    rw [← List.append_assoc]
    exact (flights_shut_of_stopped hphase).append_right lost
  refine ⟨isWhole_move {} h.whole .shut, ?_, ?_⟩
  · rw [store_shut]
    exact h.exclusive
  · rw [store_shut]
    exact h.holds.trans (hperm.map Job.hold)

/-!
# Runs
-/

theorem run_manned (w : Windows) (cache : Cache) (capacity slots : Nat) (ms : List Move)
    (hms : ∀ m ∈ ms, m.isSweep = false ∧ m ≠ .shut) :
    ((ofCache cache capacity false slots).run w ms).IsUnmanned ∧
      HoldsFor [] ((ofCache cache capacity false slots).run w ms) := by
  apply run_induction (motive := fun o => o.IsUnmanned ∧ HoldsFor [] o)
  · exact ⟨isUnmanned_ofCache cache capacity slots, holdsFor_ofCache cache capacity false slots⟩
  · rintro o ⟨hunmanned, hholds⟩ m hm
    exact ⟨(hunmanned.move m).left, hholds.move (hms m hm).left (hms m hm).right⟩

theorem run_left (hunmanned : o.IsUnmanned) (hclosed : o.desk.queue.isOpen = false)
    (hholds : HoldsFor lost o) {ms : List Move} (hms : ∀ m ∈ ms, m.isSweep = false) :
    (o.run w ms).IsUnmanned ∧ (o.run w ms).desk.queue.isOpen = false ∧
      HoldsFor lost (o.run w ms) := by
  apply run_induction (motive := fun o =>
    o.IsUnmanned ∧ o.desk.queue.isOpen = false ∧ HoldsFor lost o)
  · exact ⟨hunmanned, hclosed, hholds⟩
  · rintro o ⟨hunmanned, hclosed, hholds⟩ m hm
    have hmove := hunmanned.move (w := w) m
    refine ⟨hmove.left, hmove.right hclosed, ?_⟩
    by_cases hshut : m = .shut
    · subst hshut
      have hleft := hholds.shut hunmanned.phase
      rw [hunmanned.closed hclosed] at hleft
      exact hleft
    · exact hholds.move (hms m hm) hshut

theorem IsUnmanned.isIdle (h : o.IsUnmanned) (hclosed : o.desk.queue.isOpen = false)
    (hanswered : ∀ e ∈ o.errands, e.stage.isAnswered = true) : o.IsIdle where
  answered := hanswered
  queue := h.closed hclosed
  hand := h.hand
  landed t ht := by
    rw [h.tasks] at ht
    cases ht

/-- When nobody is at work, the locks are those of the jobs that were lost. -/
theorem HoldsFor.of_isIdle (h : HoldsFor lost o) (hidle : o.IsIdle) :
    o.store.locks.holds.Perm (lost.map Job.hold) := by
  have hholds := h.holds
  rw [hidle.flights_eq_nil, List.nil_append] at hholds
  exact hholds

theorem HoldsFor.tryLock_iff (h : HoldsFor lost o) (hidle : o.IsIdle) (key : ContentKey)
    (now : Int) :
    (∃ token, (o.store.tryLock key now).1 = .ok (some token)) ↔ ∀ j ∈ lost, j.key ≠ key := by
  have hholds := h.of_isIdle hidle
  rw [Store.tryLock_eq_some_iff h.whole]
  constructor
  · intro hfree j hj hkey
    have howns : o.store.locks.owns j.key j.token = true :=
      Locks.owns_iff.mpr (hholds.mem_iff.mpr (List.mem_map_of_mem hj))
    rw [hkey, hfree j.token] at howns
    cases howns
  · intro hother token
    cases howns : o.store.locks.owns key token with
    | false => rfl
    | true =>
        have hmem := hholds.mem_iff.mp (Locks.owns_iff.mp howns)
        rcases List.mem_map.mp hmem with ⟨j, hj, hhold⟩
        rw [Job.hold, Prod.mk.injEq] at hhold
        exact absurd hhold.left (hother j hj)

/-- A worker that is switched off and leaves after some requests have come leaves the locks of the
jobs that wait in the queue by then, and of no others, to whoever sweeps them. -/
theorem switched_off_leaves_waiting (w : Windows) (cache : Cache) (capacity slots : Nat)
    (before after : List Move) (hbefore : ∀ m ∈ before, m.isSweep = false ∧ m ≠ .shut)
    (hafter : ∀ m ∈ after, m.isSweep = false) :
    let waiting := ((ofCache cache capacity false slots).run w before).desk.queue.jobs
    let o := (ofCache cache capacity false slots).run w (before ++ .shut :: after)
    (∀ e ∈ o.errands, e.stage.isAnswered = true) →
      o.store.locks.holds.Perm (waiting.map Job.hold) ∧
        (o.store.locks.held = [] ↔ waiting = []) ∧
        ∀ key now, (∃ token, (o.store.tryLock key now).1 = .ok (some token)) ↔
          ∀ j ∈ waiting, j.key ≠ key := by
  intro waiting o hanswered
  rcases run_manned w cache capacity slots before hbefore with ⟨hunmanned, hholds⟩
  have hshut := hunmanned.move (w := w) .shut
  have hclosed : (((ofCache cache capacity false slots).run w before).move w
      .shut).desk.queue.isOpen = false := by
    rw [Office.move, shut, if_pos hunmanned.phase]
    rfl
  have hdropped := hholds.shut hunmanned.phase
  rw [List.append_nil] at hdropped
  rcases run_left (w := w) hshut.left hclosed hdropped hafter with
    ⟨hunmanned', hclosed', hholds'⟩
  have hrun : o = (((ofCache cache capacity false slots).run w before).move w
      .shut).run w after :=
    run_append w _ before (.shut :: after)
  rw [← hrun] at hunmanned' hclosed' hholds'
  have hidle := hunmanned'.isIdle hclosed' hanswered
  have hlocks := hholds'.of_isIdle hidle
  refine ⟨hlocks, ?_, fun key now => hholds'.tryLock_iff hidle key now⟩
  rw [← List.length_eq_zero_iff, ← List.length_eq_zero_iff, ← List.length_map Lock.hold,
    ← List.length_map Job.hold]
  exact Eq.congr_left hlocks.length_eq

/-- One request comes before the worker leaves and one after it. The key of the second one can be
locked again. -/
theorem switched_off_leaves_waiting_of_two_requests :
    let r : Request := ⟨"Hi", "de", .plain, .summary⟩
    let r' : Request := ⟨"Ho", "de", .plain, .summary⟩
    let before : List Move := [.come r, .proceed 0 5, .proceed 0 5, .proceed 0 5]
    let after : List Move := [.come r', .proceed 1 6, .proceed 1 6, .proceed 1 6, .proceed 1 6]
    (∀ e ∈ ((ofCache .empty 4 false 1).run {} (before ++ .shut :: after)).errands,
        e.stage.isAnswered = true) ∧
      ((ofCache .empty 4 false 1).run {} before).desk.queue.jobs = [⟨⟨0⟩, r⟩] ∧
      ((ofCache .empty 4 false 1).run {} (before ++ .shut :: after)).store.locks.holds.Perm
        (((ofCache .empty 4 false 1).run {} before).desk.queue.jobs.map Job.hold) ∧
      ∃ token, (((ofCache .empty 4 false 1).run {} (before ++ .shut :: after)).store.tryLock
        r'.key 7).1 = .ok (some token) := by
  intro r r' before after
  have hbefore : ∀ m ∈ before, m.isSweep = false ∧ m ≠ .shut := by
    simp [before, Move.isSweep]
  have hafter : ∀ m ∈ after, m.isSweep = false := by
    simp [after, Move.isSweep]
  have hanswered : ∀ e ∈ ((ofCache .empty 4 false 1).run {} (before ++ .shut :: after)).errands,
      e.stage.isAnswered = true := by
    decide +kernel
  have hwaiting : ((ofCache .empty 4 false 1).run {} before).desk.queue.jobs = [⟨⟨0⟩, r⟩] := by
    decide +kernel
  have hother : ∀ j ∈ ((ofCache .empty 4 false 1).run {} before).desk.queue.jobs,
      j.key ≠ r'.key := by
    decide +kernel
  have hleft := switched_off_leaves_waiting {} .empty 4 1 before after hbefore hafter hanswered
  exact ⟨hanswered, hwaiting, hleft.left, (hleft.right.right r'.key 7).mpr hother⟩

/-- A request has its answer and the worker has left, and the lock is still there, though nobody is
at work on the text and nothing is in the cache. -/
theorem lock_left_of_early_request :
    let r : Request := ⟨"Hi", "de", .plain, .summary⟩
    let o := (ofCache .empty 4 false 1).run {}
      [.come r, .proceed 0 5, .proceed 0 5, .proceed 0 5, .shut]
    o.IsIdle ∧ o.desk.queue.isOpen = false ∧ o.store.cache.row? r.key = none ∧
      o.store.locks.held ≠ [] ∧ (o.store.tryLock r.key 6).1 = .ok none := by
  decide +kernel

end Office
end Translation
end Parley
