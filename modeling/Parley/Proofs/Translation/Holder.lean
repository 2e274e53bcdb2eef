import Parley.Proofs.Translation.SingleFlight
import Parley.Proofs.Translation.Token

/-!
# Every lock has its holder

Sweeps may take the lock of a job in flight away, but no job lands and leaves its
lock behind: it gives the lock back, or it has found out that the lock is lost. As
no two jobs in flight have one token, each lock is held for exactly one of them,
and when nobody is at work there is no lock left.
-/

namespace Parley
namespace Translation

namespace Office

variable {o : Office}

/-!
# Tokens of jobs in flight
-/

structure HasTokens (o : Office) : Prop where
  whole : o.store.IsWhole
  distinct : (o.flights.map Job.token).Nodup
  made : ∀ j ∈ o.flights, j.token.number < o.store.locks.made

theorem hasTokens_ofCache (cache : Cache) (capacity : Nat) (enabled : Bool) (slots : Nat) :
    (ofCache cache capacity enabled slots).HasTokens where
  whole := ⟨rfl, rfl⟩
  distinct := List.nodup_nil
  made j hj := by cases hj

theorem Shift.tokens {rs : List Request} {ls ls' : Locks} {fs fs' : List Job}
    (hshift : Shift rs ls fs ls' fs') (hdistinct : (fs.map Job.token).Nodup)
    (hmade : ∀ j ∈ fs, j.token.number < ls.made) :
    (fs'.map Job.token).Nodup ∧ ∀ j ∈ fs', j.token.number < ls'.made := by
  have hperm : fs'.Perm fs → ls.made ≤ ls'.made →
      (fs'.map Job.token).Nodup ∧ ∀ j ∈ fs', j.token.number < ls'.made := by
    intro hfs hle
    refine ⟨(hfs.map Job.token).nodup_iff.mpr hdistinct, ?_⟩
    intro j hj
    exact Nat.lt_of_lt_of_le (hmade j (hfs.mem_iff.mp hj)) hle
  have hlanded : ∀ j, fs.Perm (j :: fs') → ls.made ≤ ls'.made →
      (fs'.map Job.token).Nodup ∧ ∀ j ∈ fs', j.token.number < ls'.made := by
    intro j hfs hle
    have hcons := (hfs.map Job.token).nodup_iff.mp hdistinct
    refine ⟨(List.nodup_cons.mp hcons).right, ?_⟩
    intro j' hj'
    exact Nat.lt_of_lt_of_le (hmade j' (hfs.mem_iff.mpr (List.mem_cons_of_mem j hj'))) hle
  cases hshift with
  | idle hfs => exact hperm hfs (Nat.le_refl _)
  | refused key now hheld hfs => exact hperm hfs (Locks.made_le_after ls (.tryLock key now))
  | taken r now hr hfree hfs =>
      have htaken : (ls.take r.key now).2.made = ls.made + 1 := by
        rw [Locks.take, hfree]
        rfl
      constructor
      · rw [(hfs.map Job.token).nodup_iff, List.map_cons, List.nodup_cons]
        refine ⟨?_, hdistinct⟩
        intro hmem
        rcases List.mem_map.mp hmem with ⟨j, hj, htoken⟩
        have hlt := hmade j hj
        rw [htoken] at hlt
        exact Nat.lt_irrefl ls.made hlt
      · intro j hj
        rw [htaken]
        rcases List.mem_cons.mp (hfs.mem_iff.mp hj) with rfl | hold
        · exact Nat.lt_succ_self ls.made
        · exact Nat.lt_succ_of_lt (hmade j hold)
  | stamped j now howns hfs => exact hperm hfs (Nat.le_refl _)
  | lost j now howns hfs => exact hlanded j hfs (Nat.le_refl _)
  | released j hfs => exact hlanded j hfs (Nat.le_refl _)

theorem HasTokens.move {w : Windows} (h : o.HasTokens) (m : Move) : (o.move w m).HasTokens := by
  have hwhole := isWhole_move w h.whole m
  cases hsweep : m.isSweep with
  | true =>
      cases m with
      | sweep cutoff =>
          refine ⟨hwhole, h.distinct, ?_⟩
          rw [Office.move, Office.sweep, Store.sweep_of_isWhole h.whole]
          exact h.made
      | _ => cases hsweep
  | false =>
      by_cases hshut : m = .shut
      · subst hshut
        have hstore : (o.move w .shut).store = o.store := o.store_shut
        rcases flights_shut o with ⟨dropped, hperm⟩
        have hdistinct := (hperm.map Job.token).nodup_iff.mp h.distinct
        rw [List.map_append] at hdistinct
        refine ⟨hwhole, hdistinct.of_append_right, ?_⟩
        intro j hj
        rw [hstore]
        exact h.made j (hperm.mem_iff.mpr (List.mem_append_right dropped hj))
      · have htokens := (shift_move w h.whole hsweep hshut).tokens h.distinct h.made
        exact ⟨hwhole, htokens.left, htokens.right⟩

theorem mem_flights_of_task {t : Task} (ht : t ∈ o.tasks) (hover : t.stage.isOver = false) :
    t.job ∈ o.flights :=
  List.mem_append_right _
    (List.mem_filterMap.mpr ⟨t, ht, Task.flight?_of_not_isOver hover⟩)

theorem HasTokens.nodup_of_not_over (h : o.HasTokens) {p : Task → Bool}
    (hp : ∀ t ∈ o.tasks, p t = true → t.stage.isOver = false) :
    ((o.tasks.filter p).map fun t => t.job.token).Nodup := by
  have hsub : ((o.tasks.filter p).map Task.job).Sublist (o.tasks.filterMap Task.flight?) := by
    generalize o.tasks = tasks at hp
    induction tasks with
    | nil => exact List.Sublist.slnil
    | cons t tasks ih =>
        have hrest := ih fun t' ht' => hp t' (List.mem_cons_of_mem t ht')
        rw [List.filter_cons, List.filterMap_cons]
        split
        · rename_i hpt
          rw [Task.flight?_of_not_isOver (hp t List.mem_cons_self hpt)]
          exact hrest.cons_cons t.job
        · split
          · exact hrest
          · exact hrest.cons _
  have hflights : ((o.tasks.filter p).map Task.job).Sublist o.flights :=
    hsub.trans (List.sublist_append_right _ _)
  have htokens := h.distinct.sublist (hflights.map Job.token)
  rw [List.map_map] at htokens
  exact htokens

/-!
# Workers that serve
-/

theorem phase_move (w : Windows) (o : Office) (m : Move) :
    (o.move w m).worker.phase = o.worker.phase := by
  have htell : ∀ (o' : Office) task t news,
      (o'.tell w task t news).worker.phase = o'.worker.phase := by
    intro o' task t news
    dsimp only [tell]
    split <;> rfl
  cases m with
  | come | sweep => rfl
  | proceed errand now =>
      rcases o.proceed_eq errand now with hsame | ⟨_, _, heq⟩
      · rw [move, hsame]
      · rw [move, heq]
  | take =>
      rcases o.take_eq with hsame | ⟨_, _, _, _, heq⟩
      · rw [move, hsame]
      · rw [move, heq]
  | start =>
      rcases o.start_eq with hsame | ⟨_, _, heq⟩
      · rw [move, hsame]
      · rw [move, heq]
  | shut =>
      rw [move, shut]
      split <;> rfl
  | call task now =>
      rcases o.call_eq w task now with hsame | ⟨_, _, _, _, _, heq⟩
      · rw [move, hsame]
      · rw [move, heq, htell]
        rfl
  | restamp task now =>
      rcases o.restamp_eq w task now with hsame | ⟨_, _, _, heq⟩
      · rw [move, hsame]
      · rw [move, heq, htell]
        rfl
  | post task chunk =>
      rcases o.post_eq w task chunk with hsame | ⟨_, _, _, _, _, _, heq⟩
      · rw [move, hsame]
      · rw [move, heq]
  | hear task chunk reply =>
      rcases o.hear_eq w task chunk reply with hsame | ⟨_, _, _, _, _, _, _, _, heq⟩
      · rw [move, hsame]
      · rw [move, heq, htell]

theorem shut_of_serving (h : o.worker.phase = .serving) : o.shut = o := by
  rw [shut, if_neg]
  rw [h]
  intro hphase
  cases hphase

/-!
# Locks and their holders
-/

structure IsAccounted (o : Office) : Prop where
  tokens : o.HasTokens
  serving : o.worker.phase = .serving
  held : ∀ hold ∈ o.store.locks.holds, hold ∈ o.flights.map Job.hold

theorem isAccounted_ofCache (cache : Cache) (capacity slots : Nat) :
    (ofCache cache capacity true slots).IsAccounted where
  tokens := hasTokens_ofCache cache capacity true slots
  serving := rfl
  held hold hmem := by cases hmem

theorem Shift.held {rs : List Request} {ls ls' : Locks} {fs fs' : List Job}
    (hshift : Shift rs ls fs ls' fs') (h : ∀ hold ∈ ls.holds, hold ∈ fs.map Job.hold) :
    ∀ hold ∈ ls'.holds, hold ∈ fs'.map Job.hold := by
  intro hold hmem
  have hlanded : ∀ j : Job, fs.Perm (j :: fs') → hold ∈ ls.holds → hold ≠ j.hold →
      hold ∈ fs'.map Job.hold := by
    intro j hfs hold' hne
    have hcons := (hfs.map Job.hold).mem_iff.mp (h hold hold')
    exact (List.mem_cons.mp hcons).resolve_left hne
  cases hshift with
  | idle hfs => exact (hfs.map Job.hold).mem_iff.mpr (h hold hmem)
  | refused key now hheld hfs =>
      rw [Locks.holds_take_of_held hheld] at hmem
      exact (hfs.map Job.hold).mem_iff.mpr (h hold hmem)
  | taken r now hr hfree hfs =>
      rw [Locks.holds_take_of_free hfree] at hmem
      rw [(hfs.map Job.hold).mem_iff]
      rcases List.mem_cons.mp hmem with rfl | hold'
      · exact List.mem_cons_self
      · exact List.mem_cons_of_mem _ (h hold hold')
  | stamped j now howns hfs =>
      rw [Locks.holds_refresh] at hmem
      exact (hfs.map Job.hold).mem_iff.mpr (h hold hmem)
  | lost j now howns hfs =>
      rw [Locks.holds_refresh] at hmem
      refine hlanded j hfs hmem ?_
      rintro rfl
      rw [Locks.owns_iff.mpr hmem] at howns
      cases howns
  | released j hfs =>
      rw [Locks.holds_release, List.mem_filter] at hmem
      refine hlanded j hfs hmem.left ?_
      rintro rfl
      simp [Job.hold] at hmem

theorem IsAccounted.move {w : Windows} (h : o.IsAccounted) (m : Move) :
    (o.move w m).IsAccounted := by
  refine ⟨h.tokens.move m, by rw [phase_move]; exact h.serving, ?_⟩
  cases hsweep : m.isSweep with
  | true =>
      cases m with
      | sweep cutoff =>
          intro hold hmem
          rw [Office.move, Office.sweep, Store.sweep_of_isWhole h.tokens.whole] at hmem
          exact h.held hold ((Locks.holds_sweep_sublist cutoff).subset hmem)
      | _ => cases hsweep
  | false =>
      by_cases hshut : m = .shut
      · subst hshut
        rw [Office.move, shut_of_serving h.serving]
        exact h.held
      · exact (shift_move w h.tokens.whole hsweep hshut).held h.held

theorem IsAccounted.countP_eq_one (h : o.IsAccounted) {l : Lock}
    (hl : l ∈ o.store.locks.held) :
    (o.flights.countP fun j => j.key = l.key ∧ j.token = l.token) = 1 := by
  rcases List.mem_map.mp (h.held l.hold (List.mem_map_of_mem hl)) with ⟨j, hj, hhold⟩
  rw [Job.hold, Lock.hold, Prod.mk.injEq] at hhold
  rcases hhold with ⟨hkey, htoken⟩
  have hone : (o.flights.map Job.token).count l.token = 1 :=
    List.count_eq_one_of_mem h.tokens.distinct (htoken ▸ List.mem_map_of_mem hj)
  rw [← hone, List.count_eq_countP, List.countP_map]
  apply List.countP_congr
  intro j' hj'
  simp only [decide_eq_true_eq, Function.comp_apply, beq_iff_eq]
  constructor
  · intro hboth
    exact hboth.right
  · intro htoken'
    have hsame : j' = j :=
      List.inj_on_of_nodup_map h.tokens.distinct hj' hj (htoken'.trans htoken.symm)
    rw [hsame]
    exact ⟨hkey, htoken⟩

/-!
# Nobody at work
-/

end Office

def Asking.isAnswered : Asking → Bool
  | .answered _ => true
  | _ => false

namespace Office

variable {o : Office}

/-- No request is in progress, no job waits in the queue or in the worker's hand, none runs. -/
structure IsIdle (o : Office) : Prop where
  answered : ∀ e ∈ o.errands, e.stage.isAnswered = true
  queue : o.desk.queue.jobs = []
  hand : o.worker.inHand = none
  landed : ∀ t ∈ o.tasks, t.stage.isOver = true

instance (o : Office) : Decidable o.IsIdle :=
  decidable_of_iff
    ((∀ e ∈ o.errands, e.stage.isAnswered = true) ∧ o.desk.queue.jobs = [] ∧
      o.worker.inHand = none ∧ ∀ t ∈ o.tasks, t.stage.isOver = true)
    ⟨fun ⟨answered, queue, hand, landed⟩ => ⟨answered, queue, hand, landed⟩,
      fun h => ⟨h.answered, h.queue, h.hand, h.landed⟩⟩

theorem IsIdle.flights_eq_nil (h : o.IsIdle) : o.flights = [] := by
  have herrands : o.errands.filterMap Errand.flight? = [] := by
    rw [List.filterMap_eq_nil_iff]
    intro e he
    have hanswered := h.answered e he
    rcases e with ⟨r, stage⟩
    cases stage with
    | answered answer => rfl
    | looking | locking | queueing | returning => cases hanswered
  have htasks : o.tasks.filterMap Task.flight? = [] := by
    rw [List.filterMap_eq_nil_iff]
    intro t ht
    exact Task.flight?_of_isOver (h.landed t ht)
  rw [flights, herrands, htasks, h.queue, h.hand]
  rfl

theorem IsAccounted.held_eq_nil (h : o.IsAccounted) (hidle : o.IsIdle) :
    o.store.locks.held = [] := by
  apply List.eq_nil_iff_forall_not_mem.mpr
  intro l hl
  have hcount := h.countP_eq_one hl
  rw [hidle.flights_eq_nil] at hcount
  cases hcount

theorem isAccounted_run (w : Windows) (cache : Cache) (capacity slots : Nat) (ms : List Move) :
    ((ofCache cache capacity true slots).run w ms).IsAccounted :=
  run_induction (isAccounted_ofCache cache capacity slots) fun _ ho m _ => ho.move m

/-- As long as the worker serves, each lock is that of exactly one job in flight, and when nobody
is at work every key can be locked. -/
theorem no_lock_leaks (w : Windows) (cache : Cache) (capacity slots : Nat) (ms : List Move) :
    let o := (ofCache cache capacity true slots).run w ms
    (∀ l ∈ o.store.locks.held,
        (o.flights.countP fun j => j.key = l.key ∧ j.token = l.token) = 1) ∧
      (o.IsIdle → o.store.locks.held = [] ∧
        ∀ key now, ∃ token, (o.store.tryLock key now).1 = .ok (some token)) := by
  intro o
  have haccounted : o.IsAccounted := isAccounted_run w cache capacity slots ms
  refine ⟨fun l hl => haccounted.countP_eq_one hl, ?_⟩
  intro hidle
  have hempty := haccounted.held_eq_nil hidle
  refine ⟨hempty, ?_⟩
  intro key now
  rw [Store.tryLock_eq_some_iff haccounted.tokens.whole]
  intro token
  rw [Locks.owns, hempty]
  rfl

/-- A job loses its lock in the queue, and who takes it then finds the queue full and gives it
back. -/
theorem no_lock_leaks_of_lost_job :
    let r : Request := ⟨"Hi", "de", .plain, .summary⟩
    let ms : List Move :=
      [.come r, .proceed 0 5, .proceed 0 5, .proceed 0 5, .sweep 6, .come r, .proceed 1 7,
        .proceed 1 7, .proceed 1 7, .proceed 1 7, .take, .start, .call 0 8]
    ((ofCache .empty 1 true 1).run {} ms).IsIdle ∧
      ((ofCache .empty 1 true 1).run {} ms).store.locks.held = [] ∧
      ∃ token, (((ofCache .empty 1 true 1).run {} ms).store.tryLock r.key 9).1 =
        .ok (some token) := by
  intro r ms
  have hidle : ((ofCache .empty 1 true 1).run {} ms).IsIdle := by
    decide +kernel
  have hfree := (no_lock_leaks {} .empty 1 1 ms).right hidle
  exact ⟨hidle, hfree.left, hfree.right r.key 9⟩

end Office
end Translation
end Parley
