import Parley.Proofs.Translation.Flight

/-!
# The worker at its bench

Jobs are put on the queue by those who hold an end of it. The worker takes them off
one by one and lets them run, and those that run end in any order. A run of the
bench is a list of moves, in any order, and a move that is not possible changes
nothing. What was put, taken, started and ended is kept on record.

No job is lost and none is run twice: what was put on the queue was taken in this
order or is in the queue, what was taken was started in this order or is in the
worker's hand, and what was started is running or has ended. Each job takes three
steps of the worker, and as long as a step is missing one is possible.
-/

namespace Parley
namespace Translation

/-- A job with its number among those that were taken off the queue, which tells it from jobs that
ask for the same. -/
structure Slip where
  number : Nat
  job : Job
  deriving DecidableEq, Repr

structure Bench where
  /-- How many can put jobs on the queue. -/
  senders : Nat
  queue : Queue
  worker : Worker Slip
  arrived : List Job
  taken : List Slip
  started : List Slip
  ended : List Slip
  deriving Repr

namespace Bench

def ofConfig (capacity slots : Nat) : Bench where
  senders := 1
  queue := Queue.ofCapacity capacity
  worker := Worker.ofConfig true slots
  arrived := []
  taken := []
  started := []
  ended := []

/-!
# Moves
-/

def share (b : Bench) : Bench :=
  if 0 < b.senders then { b with senders := b.senders + 1 } else b

def leave (b : Bench) : Bench :=
  { b with senders := b.senders - 1 }

def put (b : Bench) (j : Job) : Bench :=
  if 0 < b.senders then
    match b.queue.offer? j with
    | some queue => { b with queue := queue, arrived := b.arrived ++ [j] }
    | none => b
  else b

def take (b : Bench) : Bench :=
  match b.queue.take? with
  | none => b
  | some (job, queue) =>
    match b.worker.take? [⟨b.taken.length, job⟩] with
    | none => b
    | some (worker, _) =>
      { b with
        queue := queue
        worker := worker
        taken := b.taken ++ [⟨b.taken.length, job⟩] }

def start (b : Bench) : Bench :=
  match b.worker.start? with
  | none => b
  | some (slip, worker) => { b with worker := worker, started := b.started ++ [slip] }

def finish (b : Bench) (number : Nat) : Bench :=
  match b.worker.running.find? fun slip => slip.number = number with
  | none => b
  | some slip =>
    { b with
      worker := b.worker.finish fun slip' => slip'.number = number
      ended := b.ended ++ [slip] }

def close (b : Bench) : Bench :=
  match b.queue.jobs with
  | _ :: _ => b
  | [] =>
    match b.worker.close? [] b.senders with
    | none => b
    | some worker => { b with worker := worker }

def stop (b : Bench) : Bench :=
  match b.worker.stop? with
  | none => b
  | some worker => { b with worker := worker, queue := b.queue.close }

inductive Move where
  | share
  | leave
  | put (j : Job)
  | take
  | start
  | finish (number : Nat)
  | close
  | stop
  deriving DecidableEq

def Move.isWork : Move → Bool
  | .take | .start | .finish _ => true
  | .share | .leave | .put _ | .close | .stop => false

def move (b : Bench) : Move → Bench
  | .share => b.share
  | .leave => b.leave
  | .put j => b.put j
  | .take => b.take
  | .start => b.start
  | .finish number => b.finish number
  | .close => b.close
  | .stop => b.stop

def run (b : Bench) (ms : List Move) : Bench :=
  ms.foldl move b

theorem run_induction {motive : Bench → Prop} {b : Bench} (start : motive b)
    (step : ∀ b, motive b → ∀ m, motive (b.move m)) (ms : List Move) : motive (b.run ms) := by
  induction ms generalizing b with
  | nil => exact start
  | cons m ms ih => exact ih (step b start m)

/-!
# What moves do

Each move changes nothing, or it changes the bench as it says here.
-/

variable (b : Bench)

theorem put_eq (j : Job) :
    b.put j = b ∨
      0 < b.senders ∧
        b.put j =
          { b with
            queue := { b.queue with jobs := b.queue.jobs ++ [j] }
            arrived := b.arrived ++ [j] } := by
  unfold put
  split
  · rename_i hsenders
    split
    · rename_i queue hoffer
      exact Or.inr ⟨hsenders, by rw [Queue.offer?_eq_some hoffer]⟩
    · exact Or.inl rfl
  · exact Or.inl rfl

theorem take_of_waiting {b : Bench} {job : Job} {rest : List Job}
    (hphase : b.worker.phase = .serving) (hhand : b.worker.inHand = none)
    (hjobs : b.queue.jobs = job :: rest) :
    b.take =
      { b with
        queue := { b.queue with jobs := rest }
        worker := { b.worker with inHand := some ⟨b.taken.length, job⟩ }
        taken := b.taken ++ [⟨b.taken.length, job⟩] } := by
  simp only [take, Queue.take?, hjobs, Worker.take?, hphase, hhand]

theorem take_eq :
    b.take = b ∨
      ∃ job rest, b.queue.jobs = job :: rest ∧ b.worker.phase = .serving ∧
        b.worker.inHand = none ∧
        b.take =
          { b with
            queue := { b.queue with jobs := rest }
            worker := { b.worker with inHand := some ⟨b.taken.length, job⟩ }
            taken := b.taken ++ [⟨b.taken.length, job⟩] } := by
  cases hjobs : b.queue.jobs with
  | nil =>
      left
      simp only [take, Queue.take?, hjobs]
  | cons job rest =>
      cases hphase : b.worker.phase with
      | serving =>
          cases hhand : b.worker.inHand with
          | none => exact Or.inr ⟨job, rest, rfl, rfl, rfl, take_of_waiting hphase hhand hjobs⟩
          | some slip =>
              left
              simp only [take, Queue.take?, hjobs, Worker.take?, hphase, hhand]
      | finishing | stopped =>
          left
          simp only [take, Queue.take?, hjobs, Worker.take?, hphase]

theorem start_of_free {b : Bench} {slip : Slip} (hhand : b.worker.inHand = some slip)
    (hfree : b.worker.running.length < b.worker.slots) :
    b.start =
      { b with
        worker := { b.worker with inHand := none, running := b.worker.running ++ [slip] }
        started := b.started ++ [slip] } := by
  simp only [start, Worker.start?, hhand, if_pos hfree]

theorem start_eq :
    b.start = b ∨
      ∃ slip, b.worker.inHand = some slip ∧ b.worker.running.length < b.worker.slots ∧
        b.start =
          { b with
            worker := { b.worker with inHand := none, running := b.worker.running ++ [slip] }
            started := b.started ++ [slip] } := by
  cases hhand : b.worker.inHand with
  | none =>
      left
      simp only [start, Worker.start?, hhand]
  | some slip =>
      by_cases hfree : b.worker.running.length < b.worker.slots
      · exact Or.inr ⟨slip, rfl, hfree, start_of_free hhand hfree⟩
      · left
        simp only [start, Worker.start?, hhand, if_neg hfree]

theorem finish_eq (number : Nat) :
    b.finish number = b ∨
      ∃ slip ∈ b.worker.running, slip.number = number ∧
        b.finish number =
          { b with
            worker := b.worker.finish fun slip' => slip'.number = number
            ended := b.ended ++ [slip] } := by
  cases hfind : b.worker.running.find? fun slip => slip.number = number with
  | none =>
      left
      simp only [finish, hfind]
  | some slip =>
      right
      refine ⟨slip, List.mem_of_find?_eq_some hfind, ?_, ?_⟩
      · simpa using List.find?_some hfind
      · simp only [finish, hfind]

theorem close_eq :
    b.close = b ∨
      b.senders = 0 ∧ b.queue.jobs = [] ∧ b.worker.inHand = none ∧
        b.close = { b with worker := { b.worker with phase := .finishing } } := by
  unfold close
  split
  · exact Or.inl rfl
  · rename_i hjobs
    split
    · exact Or.inl rfl
    · rename_i worker hclose
      unfold Worker.close? at hclose
      split at hclose
      · rename_i hhand _ hsenders
        cases hclose
        exact Or.inr ⟨hsenders, hjobs, hhand, rfl⟩
      · cases hclose

theorem stop_eq :
    b.stop = b ∨
      b.worker.phase = .finishing ∧
        b.worker.running.length + b.worker.awaited ≤ b.worker.slots ∧
        b.stop =
          { b with worker := { b.worker with phase := .stopped }, queue := b.queue.close } := by
  unfold stop
  split
  · exact Or.inl rfl
  · rename_i worker hstop
    unfold Worker.stop? at hstop
    split at hstop
    · rename_i hcan
      cases hstop
      exact Or.inr ⟨hcan.left, hcan.right, rfl⟩
    · cases hstop

/-!
# Order
-/

/-- Every job is where the records say. A worker that takes no more jobs has left none behind. -/
structure IsOrderly (slots : Nat) (b : Bench) : Prop where
  slots_eq : b.worker.slots = max slots 1
  arrived_eq : b.arrived = b.taken.map Slip.job ++ b.queue.jobs
  numbered : b.taken.map Slip.number = List.range b.taken.length
  taken_eq : b.taken = b.started ++ b.worker.inHand.toList
  started_perm : b.started.Perm (b.worker.running ++ b.ended)
  room : b.worker.running.length ≤ b.worker.slots
  drained : b.worker.phase ≠ .serving →
    b.senders = 0 ∧ b.queue.jobs = [] ∧ b.worker.inHand = none
  awaited : b.worker.phase = .stopped →
    b.worker.running.length + b.worker.awaited ≤ b.worker.slots

variable {b} {slots : Nat}

theorem isOrderly_ofConfig (capacity slots : Nat) : (ofConfig capacity slots).IsOrderly slots where
  slots_eq := rfl
  arrived_eq := rfl
  numbered := rfl
  taken_eq := rfl
  started_perm := .refl _
  room := Nat.zero_le _
  drained hphase := absurd rfl hphase
  awaited hphase := by cases hphase

theorem IsOrderly.serving_of_sender (h : b.IsOrderly slots) (hsenders : 0 < b.senders) :
    b.worker.phase = .serving := by
  by_contra hphase
  rw [(h.drained hphase).left] at hsenders
  exact Nat.lt_irrefl 0 hsenders

theorem IsOrderly.numbers_nodup (h : b.IsOrderly slots) :
    (b.worker.running.map Slip.number).Nodup := by
  have htaken : (b.taken.map Slip.number).Nodup := by
    rw [h.numbered]
    exact List.nodup_range
  rw [h.taken_eq, List.map_append] at htaken
  have hstarted := (h.started_perm.map Slip.number).nodup_iff.mp htaken.of_append_left
  rw [List.map_append] at hstarted
  exact hstarted.of_append_left

theorem IsOrderly.running_perm (h : b.IsOrderly slots) {slip : Slip}
    (hslip : slip ∈ b.worker.running) :
    b.worker.running.Perm
      (slip :: (b.worker.finish fun slip' => slip'.number = slip.number).running) := by
  have hnodup : b.worker.running.Nodup := h.numbers_nodup.of_map Slip.number
  have herase : b.worker.running.erase slip =
      b.worker.running.filter fun slip' => !(slip'.number = slip.number) := by
    rw [hnodup.erase_eq_filter]
    apply List.filter_congr
    intro slip' hslip'
    have hsame : slip' = slip ↔ slip'.number = slip.number :=
      ⟨congrArg Slip.number, List.inj_on_of_nodup_map h.numbers_nodup hslip' hslip⟩
    rw [bne, beq_eq_decide, decide_eq_decide.mpr hsame]
  exact (List.perm_cons_erase hslip).trans (.of_eq (congrArg _ herase))

theorem IsOrderly.put (h : b.IsOrderly slots) (j : Job) : (b.put j).IsOrderly slots := by
  rcases b.put_eq j with hsame | ⟨hsenders, heq⟩
  · rw [hsame]
    exact h
  · have hserving := h.serving_of_sender hsenders
    rw [heq]
    exact
      { h with
        arrived_eq := by
          dsimp only
          rw [h.arrived_eq, List.append_assoc]
        drained := fun hphase => absurd hserving hphase }

theorem IsOrderly.take (h : b.IsOrderly slots) : b.take.IsOrderly slots := by
  rcases b.take_eq with hsame | ⟨job, rest, hjobs, hphase, hhand, heq⟩
  · rw [hsame]
    exact h
  · rw [heq]
    exact
      { h with
        arrived_eq := by
          dsimp only
          rw [h.arrived_eq, hjobs, List.map_append, List.append_assoc]
          rfl
        numbered := by
          dsimp only
          rw [List.map_append, h.numbered, List.length_append, List.length_singleton,
            List.range_succ]
          rfl
        taken_eq := by
          have htaken := h.taken_eq
          rw [hhand, Option.toList_none, List.append_nil] at htaken
          dsimp only
          rw [Option.toList_some, ← htaken]
        drained := fun hstopped => absurd hphase hstopped }

theorem IsOrderly.start (h : b.IsOrderly slots) : b.start.IsOrderly slots := by
  rcases b.start_eq with hsame | ⟨slip, hhand, hfree, heq⟩
  · rw [hsame]
    exact h
  · have hserving : b.worker.phase = .serving := by
      by_contra hphase
      rw [(h.drained hphase).right.right] at hhand
      cases hhand
    rw [heq]
    exact
      { h with
        taken_eq := by
          dsimp only
          rw [h.taken_eq, hhand, Option.toList_some, Option.toList_none, List.append_nil]
        started_perm := by
          dsimp only
          rw [List.append_assoc]
          exact (h.started_perm.append_right [slip]).trans
            (by rw [List.append_assoc]; exact List.perm_append_comm.append_left _)
        room := by
          dsimp only
          rw [List.length_append, List.length_singleton]
          exact hfree
        drained := fun hphase => absurd hserving hphase
        awaited := fun hphase => absurd (hserving.symm.trans hphase) (by decide) }

theorem IsOrderly.finish (h : b.IsOrderly slots) (number : Nat) :
    (b.finish number).IsOrderly slots := by
  rcases b.finish_eq number with hsame | ⟨slip, hslip, rfl, heq⟩
  · rw [hsame]
    exact h
  · have hperm := h.running_perm hslip
    have hfewer : (b.worker.finish fun slip' => slip'.number = slip.number).running.length ≤
        b.worker.running.length :=
      List.length_filter_le _ _
    rw [heq]
    exact
      { h with
        started_perm := by
          refine h.started_perm.trans ((hperm.append_right _).trans ?_)
          dsimp only
          rw [← List.append_assoc]
          exact (List.perm_append_singleton slip _).symm
        room := Nat.le_trans hfewer h.room
        drained := h.drained
        awaited := fun hphase =>
          Nat.le_trans (Nat.add_le_add_right hfewer _) (h.awaited hphase) }

theorem IsOrderly.close (h : b.IsOrderly slots) : b.close.IsOrderly slots := by
  rcases b.close_eq with hsame | ⟨hsenders, hjobs, hhand, heq⟩
  · rw [hsame]
    exact h
  · rw [heq]
    exact
      { h with
        drained := fun _ => ⟨hsenders, hjobs, hhand⟩
        awaited := fun hphase => by cases hphase }

theorem IsOrderly.stop (h : b.IsOrderly slots) : b.stop.IsOrderly slots := by
  rcases b.stop_eq with hsame | ⟨hphase, hawaited, heq⟩
  · rw [hsame]
    exact h
  · rcases h.drained (by rw [hphase]; decide) with ⟨hsenders, hjobs, hhand⟩
    rw [heq]
    exact
      { h with
        arrived_eq := by
          rw [h.arrived_eq, hjobs]
          rfl
        drained := fun _ => ⟨hsenders, rfl, hhand⟩
        awaited := fun _ => hawaited }

theorem IsOrderly.move (h : b.IsOrderly slots) (m : Move) : (b.move m).IsOrderly slots := by
  cases m with
  | share =>
      rw [Bench.move, Bench.share]
      split
      · rename_i hsenders
        exact { h with drained := fun hphase => absurd (h.serving_of_sender hsenders) hphase }
      · exact h
  | leave =>
      refine { h with drained := fun hphase => ?_ }
      rcases h.drained hphase with ⟨hsenders, hrest⟩
      exact ⟨by dsimp only [Bench.move, Bench.leave]; rw [hsenders], hrest⟩
  | put j => exact h.put j
  | take => exact h.take
  | start => exact h.start
  | finish number => exact h.finish number
  | close => exact h.close
  | stop => exact h.stop

theorem isOrderly_run (capacity slots : Nat) (ms : List Move) :
    ((ofConfig capacity slots).run ms).IsOrderly slots :=
  run_induction (isOrderly_ofConfig capacity slots) (fun _ hb m => hb.move m) ms

/-!
# Progress
-/

def progress (b : Bench) : Nat :=
  b.taken.length + b.started.length + b.ended.length

/-- No job can take a step. -/
def IsAtRest (b : Bench) : Prop :=
  ∀ m : Move, m.isWork = true → b.move m = b

theorem isAtRest_of_done (hjobs : b.queue.jobs = []) (hhand : b.worker.inHand = none)
    (hrunning : b.worker.running = []) : b.IsAtRest := by
  intro m hm
  cases m with
  | take => simp only [move, take, Queue.take?, hjobs]
  | start => simp only [move, start, Worker.start?, hhand]
  | finish number => simp only [move, finish, hrunning, List.find?_nil]
  | share | leave | put | close | stop => cases hm

theorem progress_move {m : Move} (h : m.isWork = true) :
    b.move m = b ∨ (b.move m).progress = b.progress + 1 := by
  cases m with
  | take =>
      rcases b.take_eq with hsame | ⟨_, _, _, _, _, heq⟩
      · exact Or.inl hsame
      · right
        rw [move, heq]
        simp only [progress, List.length_append, List.length_singleton]
        omega
  | start =>
      rcases b.start_eq with hsame | ⟨_, _, _, heq⟩
      · exact Or.inl hsame
      · right
        rw [move, heq]
        simp only [progress, List.length_append, List.length_singleton]
        omega
  | finish number =>
      rcases b.finish_eq number with hsame | ⟨_, _, _, heq⟩
      · exact Or.inl hsame
      · right
        rw [move, heq]
        simp only [progress, List.length_append, List.length_singleton]
        omega
  | share | leave | put | close | stop => cases h

theorem IsOrderly.progress_le (h : b.IsOrderly slots) : b.progress ≤ 3 * b.arrived.length := by
  have harrived := congrArg List.length h.arrived_eq
  have htaken := congrArg List.length h.taken_eq
  have hstarted := h.started_perm.length_eq
  rw [List.length_append, List.length_map] at harrived
  rw [List.length_append] at htaken hstarted
  rw [progress]
  omega

/-- A bench is at rest only when nothing is left to be done. -/
theorem IsOrderly.done_of_isAtRest (h : b.IsOrderly slots) (hrest : b.IsAtRest) :
    b.queue.jobs = [] ∧ b.worker.inHand = none ∧ b.worker.running = [] := by
  have hrunning : b.worker.running = [] := by
    cases hslips : b.worker.running with
    | nil => rfl
    | cons slip slips =>
        have hfind : b.worker.running.find? (fun slip' => slip'.number = slip.number) =
            some slip := by
          rw [hslips]
          exact List.find?_cons_of_pos (by simp)
        have hended := congrArg List.length (congrArg ended (hrest (.finish slip.number) rfl))
        simp [Bench.move, Bench.finish, hfind] at hended
  have hhand : b.worker.inHand = none := by
    cases hslip : b.worker.inHand with
    | none => rfl
    | some slip =>
        have hfree : b.worker.running.length < b.worker.slots := by
          rw [hrunning, h.slots_eq]
          exact Nat.lt_of_lt_of_le Nat.zero_lt_one (Nat.le_max_right slots 1)
        have hstarted := congrArg List.length (congrArg started (hrest .start rfl))
        simp [Bench.move, start_of_free hslip hfree] at hstarted
  refine ⟨?_, hhand, hrunning⟩
  cases hjobs : b.queue.jobs with
  | nil => rfl
  | cons job rest =>
      have hserving : b.worker.phase = .serving := by
        by_contra hphase
        rw [(h.drained hphase).right.left] at hjobs
        cases hjobs
      have htaken := congrArg List.length (congrArg taken (hrest .take rfl))
      simp [Bench.move, take_of_waiting hserving hhand hjobs] at htaken

/-!
# Runs
-/

/-- The worker takes jobs in the order in which they were put on the queue, starts them in this
order, each once, and lets no more run at a time than it has slots. Jobs can take steps until all of
them have ended. -/
theorem each_job_runs_once (capacity slots : Nat) (ms : List Move) :
    let b := (ofConfig capacity slots).run ms
    b.arrived = b.taken.map Slip.job ++ b.queue.jobs ∧
      b.taken = b.started ++ b.worker.inHand.toList ∧
      b.taken.map Slip.number = List.range b.taken.length ∧
      b.started.Perm (b.worker.running ++ b.ended) ∧
      b.worker.running.length ≤ max slots 1 ∧
      b.progress ≤ 3 * b.arrived.length ∧
      (∀ m : Move, m.isWork = true →
        b.move m = b ∨ (b.move m).progress = b.progress + 1) ∧
      (b.IsAtRest → b.started.map Slip.job = b.arrived ∧ b.ended.Perm b.started) := by
  intro b
  have h : b.IsOrderly slots := isOrderly_run capacity slots ms
  refine ⟨h.arrived_eq, h.taken_eq, h.numbered, h.started_perm, ?_, h.progress_le,
    fun _ hm => progress_move hm, ?_⟩
  · rw [← h.slots_eq]
    exact h.room
  · intro hrest
    rcases h.done_of_isAtRest hrest with ⟨hjobs, hhand, hrunning⟩
    have htaken := h.taken_eq
    have hstarted := h.started_perm
    rw [hhand, Option.toList_none, List.append_nil] at htaken
    rw [hrunning, List.nil_append] at hstarted
    refine ⟨?_, hstarted.symm⟩
    rw [h.arrived_eq, hjobs, List.append_nil, htaken]

/-- Of three jobs in two slots the second one ends first, and two of them ask for the same. -/
theorem each_job_runs_once_of_three_jobs :
    let j : Job := ⟨⟨0⟩, "Hi", "de", .plain, .summary⟩
    let j' : Job := ⟨⟨1⟩, "Ho", "de", .plain, .summary⟩
    let ms : List Move :=
      [.put j, .take, .put j, .put j', .start, .take, .start, .take, .start, .finish 1, .start,
        .finish 0, .finish 0, .finish 2, .take]
    ((ofConfig 8 2).run ms).IsAtRest ∧
      ((ofConfig 8 2).run ms).ended.map Slip.number = [1, 0, 2] ∧
      ((ofConfig 8 2).run ms).started.map Slip.job = [j, j, j'] ∧
      ((ofConfig 8 2).run ms).ended.Perm ((ofConfig 8 2).run ms).started := by
  intro j j' ms
  have hrest : ((ofConfig 8 2).run ms).IsAtRest :=
    isAtRest_of_done (by decide) (by decide) (by decide)
  have hended : ((ofConfig 8 2).run ms).ended.map Slip.number = [1, 0, 2] := by
    decide
  have harrived : ((ofConfig 8 2).run ms).arrived = [j, j, j'] := by
    decide
  rcases each_job_runs_once 8 2 ms with ⟨-, -, -, -, -, -, -, hdone⟩
  exact ⟨hrest, hended, (hdone hrest).left.trans harrived, (hdone hrest).right⟩

end Bench
end Translation
end Parley
