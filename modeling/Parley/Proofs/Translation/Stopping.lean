import Parley.Proofs.Translation.Bench

/-!
# When the worker stops

The worker stops after it has found the queue closed and empty, and it waits for
as many slots as a 32-bit number counts of those that it has. With fewer than
`4294967296` slots these are all of them, and no job is running any more. With more
it may wait for too few, and jobs are still running after it has stopped.
-/

namespace Parley
namespace Translation
namespace Bench

variable {b : Bench} {slots : Nat}

/-!
# Few slots
-/

theorem IsOrderly.awaited_eq (h : b.IsOrderly slots) (hslots : slots < 4294967296) :
    b.worker.awaited = b.worker.slots := by
  rw [Worker.awaited, h.slots_eq]
  apply Nat.mod_eq_of_lt
  exact Nat.max_lt.mpr ⟨hslots, by decide⟩

theorem IsOrderly.none_running (h : b.IsOrderly slots) (hslots : slots < 4294967296)
    (hphase : b.worker.phase = .stopped) : b.worker.running = [] := by
  have hroom := h.awaited hphase
  rw [h.awaited_eq hslots] at hroom
  apply List.eq_nil_of_length_eq_zero
  omega

theorem IsOrderly.all_started (h : b.IsOrderly slots) (hphase : b.worker.phase = .stopped) :
    b.started.map Slip.job = b.arrived := by
  rcases h.drained (by rw [hphase]; decide) with ⟨-, hjobs, hhand⟩
  rw [h.arrived_eq, h.taken_eq, hjobs, hhand, Option.toList_none, List.append_nil,
    List.append_nil]

/-!
# Many slots
-/

def early (j : Job) : List Move :=
  [.put j, .take, .start, .leave, .close, .stop]

theorem run_early (capacity : Nat) (hslots : 4294967296 ≤ slots) (j : Job) :
    ((ofConfig capacity slots).run (early j)).worker =
      { slots := slots, inHand := none, running := [⟨0, j⟩], phase := .stopped } := by
  have hmax : max slots 1 = slots := by omega
  have hroom : (0 : Nat) < max capacity 1 := by omega
  have hfree : 0 < slots := by omega
  have hawaited : 1 + slots % 4294967296 ≤ slots := by omega
  simp [run, early, move, ofConfig, Queue.ofCapacity, Worker.ofConfig, put, Queue.offer?,
    Queue.free, take, Queue.take?, Worker.take?, start, Worker.start?, leave, close,
    Worker.close?, stop, Worker.stop?, Worker.awaited, hmax, hroom, hfree, hawaited]

/-!
# Runs
-/

/-- A worker that has stopped has started every job, and nobody is left to bring another one. That
all of them have ended too is certain for those numbers of slots that 32 bits can hold, and for no
others. -/
theorem stops_drained_iff (capacity slots : Nat) :
    (∀ ms : List Move, ((ofConfig capacity slots).run ms).worker.phase = .stopped →
      ((ofConfig capacity slots).run ms).senders = 0 ∧
        ((ofConfig capacity slots).run ms).queue.jobs = [] ∧
        ((ofConfig capacity slots).run ms).started.map Slip.job =
          ((ofConfig capacity slots).run ms).arrived) ∧
      ((∀ ms : List Move, ((ofConfig capacity slots).run ms).worker.phase = .stopped →
        ((ofConfig capacity slots).run ms).ended.Perm ((ofConfig capacity slots).run ms).started) ↔
          slots < 4294967296) := by
  constructor
  · intro ms hphase
    have h := isOrderly_run capacity slots ms
    rcases h.drained (by rw [hphase]; decide) with ⟨hsenders, hjobs, -⟩
    exact ⟨hsenders, hjobs, h.all_started hphase⟩
  · constructor
    · intro hended
      by_contra hmany
      let j : Job := ⟨⟨0⟩, "", "", .plain, .summary⟩
      have hworker := run_early capacity (Nat.le_of_not_lt hmany) j
      have hperm := hended (early j) (congrArg Worker.phase hworker)
      have hrunning := (isOrderly_run capacity slots (early j)).started_perm
      rw [hworker] at hrunning
      have hlength := (hrunning.symm.trans hperm.symm).length_eq
      rw [List.length_append, List.length_singleton] at hlength
      omega
    · intro hslots ms hphase
      have h := isOrderly_run capacity slots ms
      have hrunning := h.started_perm
      rw [h.none_running hslots hphase, List.nil_append] at hrunning
      exact hrunning.symm

/-- The worker waits for the job that runs when nobody is left. -/
theorem stops_drained_of_slow_job :
    let j : Job := ⟨⟨0⟩, "Hi", "de", .plain, .summary⟩
    let ms : List Move :=
      [.put j, .take, .start, .leave, .close, .stop, .put j, .finish 0, .stop]
    ((ofConfig 8 2).run [.put j, .take, .start, .leave, .close, .stop]).worker.phase =
        .finishing ∧
      ((ofConfig 8 2).run ms).worker.phase = .stopped ∧
      ((ofConfig 8 2).run ms).started.map Slip.job = [j] ∧
      ((ofConfig 8 2).run ms).ended.Perm ((ofConfig 8 2).run ms).started := by
  intro j ms
  have hphase : ((ofConfig 8 2).run ms).worker.phase = .stopped := by
    decide
  have harrived : ((ofConfig 8 2).run ms).arrived = [j] := by
    decide
  have hdrained := stops_drained_iff 8 2
  exact ⟨by decide, hphase, (hdrained.left ms hphase).right.right.trans harrived,
    hdrained.right.mpr (by decide) ms hphase⟩

/-- With `4294967296` slots, which a worker may have, the worker waits for none of them. -/
theorem stops_with_a_job_running :
    let j : Job := ⟨⟨0⟩, "Hi", "de", .plain, .summary⟩
    let b := (ofConfig 8 4294967296).run [.put j, .take, .start, .leave, .close, .stop]
    4294967296 ≤ Worker.most ∧ b.worker.phase = .stopped ∧ b.worker.running = [⟨0, j⟩] ∧
      b.started = [⟨0, j⟩] ∧ b.ended = [] := by
  decide

end Bench
end Translation
end Parley
