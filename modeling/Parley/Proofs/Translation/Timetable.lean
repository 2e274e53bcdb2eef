import Parley.Proofs.Translation.Stopping
import Parley.Translation.Schedule

/-!
# Schedules at the bench

A schedule is a worker that is left alone with the jobs in its queue. Whatever it
does is done at the bench too: when it waits, some jobs end, and when it begins a
job, that is taken and started. So all that is true of the bench is true of
schedules, where the worker goes on until it stops.
-/

namespace Parley
namespace Translation

namespace Bench

variable {b : Bench} {slots : Nat}

theorem run_append (b : Bench) (ms ms' : List Move) : b.run (ms ++ ms') = (b.run ms).run ms' :=
  List.foldl_append

theorem IsOrderly.run (h : b.IsOrderly slots) (ms : List Move) : (b.run ms).IsOrderly slots :=
  run_induction h (fun _ hb m => hb.move m) ms

/-!
# Many moves of a kind
-/

theorem run_puts (hsenders : 0 < b.senders) (hopen : b.queue.isOpen = true) {js : List Job}
    (hroom : b.queue.jobs.length + js.length ≤ b.queue.capacity) :
    b.run (js.map .put) =
      { b with
        queue := { b.queue with jobs := b.queue.jobs ++ js }
        arrived := b.arrived ++ js } := by
  induction js generalizing b with
  | nil => simp [run]
  | cons j js ih =>
      have hfree : 0 < b.queue.free := by
        rw [List.length_cons] at hroom
        rw [Queue.free]
        omega
      have hput : b.move (.put j) =
          { b with
            queue := { b.queue with jobs := b.queue.jobs ++ [j] }
            arrived := b.arrived ++ [j] } := by
        simp [move, put, hsenders, Queue.offer?, hopen, hfree]
      have hroom' : (b.queue.jobs ++ [j]).length + js.length ≤ b.queue.capacity := by
        rw [List.length_cons] at hroom
        rw [List.length_append, List.length_singleton]
        omega
      change (b.move (.put j)).run (js.map .put) = _
      rw [hput]
      rw [@ih
        { b with
          queue := { b.queue with jobs := b.queue.jobs ++ [j] }
          arrived := b.arrived ++ [j] } hsenders hopen hroom']
      simp only [List.append_assoc, List.singleton_append]

theorem finish_worker (b : Bench) (number : Nat) :
    ∃ ended, b.finish number =
      { b with
        worker := b.worker.finish fun slip => slip.number = number
        ended := ended } := by
  cases hfind : b.worker.running.find? fun slip => slip.number = number with
  | none =>
      refine ⟨b.ended, ?_⟩
      have hall : b.worker.running.filter (fun slip => !decide (slip.number = number)) =
          b.worker.running := by
        apply List.filter_eq_self.mpr
        intro slip hslip
        have hother := List.find?_eq_none.mp hfind slip hslip
        rw [Bool.not_eq_true] at hother
        rw [hother]
        rfl
      simp only [finish, hfind, Worker.finish, hall]
  | some slip => exact ⟨b.ended ++ [slip], by simp only [finish, hfind]⟩

theorem run_finishes (b : Bench) (numbers : List Nat) :
    ∃ ended, b.run (numbers.map .finish) =
      { b with
        worker :=
          { b.worker with
            running := b.worker.running.filter fun slip => slip.number ∉ numbers }
        ended := ended } := by
  induction numbers generalizing b with
  | nil => exact ⟨b.ended, by simp [run]⟩
  | cons number numbers ih =>
      rcases finish_worker b number with ⟨ended, hfinish⟩
      rcases ih (b.finish number) with ⟨ended', hrest⟩
      refine ⟨ended', ?_⟩
      change (b.finish number).run (numbers.map .finish) = _
      rw [hrest, hfinish]
      simp only [Worker.finish, List.filter_filter]
      congr 3
      funext slip
      simp [List.mem_cons, Bool.and_comm]

end Bench

namespace Schedule

variable {σ : Type} {s : Schedule σ} {b : Bench} {slots : Nat} {jobs rest : List Job}

/-!
# Waiting
-/

theorem goOn_worker (s : Schedule σ) (time : Nat) :
    (s.goOn time).worker =
      { s.worker with running := s.worker.running.filter fun t => !(t.ends ≤ time) } :=
  rfl

theorem foldl_min_eq (ts : List Ticket) (ends : Nat) :
    ts.foldl (fun ends t => min ends t.ends) ends = ends ∨
      ∃ t ∈ ts, ts.foldl (fun ends t => min ends t.ends) ends = t.ends := by
  induction ts generalizing ends with
  | nil => exact Or.inl rfl
  | cons t ts ih =>
      rw [List.foldl_cons]
      rcases ih (min ends t.ends) with hfirst | ⟨t', ht', hlater⟩
      · rw [hfirst]
        rcases Nat.le_total ends t.ends with hle | hle
        · exact Or.inl (Nat.min_eq_left hle)
        · exact Or.inr ⟨t, List.mem_cons_self, Nat.min_eq_right hle⟩
      · exact Or.inr ⟨t', List.mem_cons_of_mem t ht', hlater⟩

theorem exists_nextEnd (h : s.worker.running ≠ []) :
    ∃ t ∈ s.worker.running, t.ends = s.nextEnd := by
  rw [nextEnd]
  cases hrunning : s.worker.running with
  | nil => exact absurd hrunning h
  | cons t ts =>
      rcases foldl_min_eq ts t.ends with hfirst | ⟨t', ht', hlater⟩
      · exact ⟨t, List.mem_cons_self, hfirst.symm⟩
      · exact ⟨t', List.mem_cons_of_mem t ht', hlater.symm⟩

theorem length_await_lt (h : s.worker.running ≠ []) :
    s.await.worker.running.length < s.worker.running.length := by
  rcases exists_nextEnd h with ⟨t, ht, hends⟩
  rw [await, goOn_worker]
  apply List.length_filter_lt_length_iff_exists.mpr
  refine ⟨t, ht, ?_⟩
  rw [hends, decide_eq_true (Nat.le_max_right s.time s.nextEnd)]
  exact Bool.false_ne_true

/-!
# Where a schedule stands
-/

/-- The schedule and the bench have come equally far with the same jobs. -/
structure StandsAt (slots : Nat) (jobs rest : List Job) (s : Schedule σ) (b : Bench) : Prop where
  orderly : b.IsOrderly slots
  arrived : b.arrived = jobs
  senders : b.senders = 0
  waiting : b.queue.jobs = rest
  begun : b.taken.length = s.runs.length
  slots_eq : b.worker.slots = s.worker.slots
  phase : b.worker.phase = s.worker.phase
  hand : b.worker.inHand = none
  hand_free : s.worker.inHand = none
  running : b.worker.running.map Slip.number = s.worker.running.map Ticket.index

theorem StandsAt.length_running (h : StandsAt slots jobs rest s b) :
    b.worker.running.length = s.worker.running.length := by
  rw [← List.length_map Slip.number, h.running, List.length_map]

theorem filter_index_notMem {ts : List Ticket} (hnodup : (ts.map Ticket.index).Nodup)
    (p : Ticket → Bool) :
    (ts.map Ticket.index).filter (fun n => n ∉ (ts.filter p).map Ticket.index) =
      (ts.filter fun t => !p t).map Ticket.index := by
  have hgone : ∀ t ∈ ts, decide (t.index ∉ (ts.filter p).map Ticket.index) = !p t := by
    intro t ht
    rw [decide_not, Bool.not_inj_iff, Bool.eq_iff_iff, decide_eq_true_iff]
    constructor
    · intro hmem
      rcases List.mem_map.mp hmem with ⟨t', ht', hindex⟩
      rcases List.mem_filter.mp ht' with ⟨hrunning, hends⟩
      rw [← List.inj_on_of_nodup_map hnodup hrunning ht hindex]
      exact hends
    · intro hends
      exact List.mem_map_of_mem (List.mem_filter.mpr ⟨ht, hends⟩)
  rw [List.filter_map]
  exact congrArg (List.map Ticket.index) (List.filter_congr hgone)

theorem StandsAt.goOn (h : StandsAt slots jobs rest s b) (time : Nat) :
    ∃ ms, StandsAt slots jobs rest (s.goOn time) (b.run ms) := by
  let gone : List Nat := (s.worker.running.filter fun t => t.ends ≤ time).map Ticket.index
  refine ⟨gone.map .finish, ?_⟩
  rcases b.run_finishes gone with ⟨ended, hrun⟩
  have horderly := h.orderly.run (gone.map .finish)
  rw [hrun] at horderly ⊢
  have hnodup : (s.worker.running.map Ticket.index).Nodup := by
    rw [← h.running]
    exact h.orderly.numbers_nodup
  have hrunning : (b.worker.running.filter fun slip => slip.number ∉ gone).map Slip.number =
      (s.worker.running.filter fun t => !decide (t.ends ≤ time)).map Ticket.index := by
    rw [← filter_index_notMem hnodup, ← h.running, List.filter_map]
    rfl
  exact
    { orderly := horderly
      arrived := h.arrived
      senders := h.senders
      waiting := h.waiting
      begun := h.begun
      slots_eq := h.slots_eq
      phase := h.phase
      hand := h.hand
      hand_free := h.hand_free
      running := hrunning }

/-!
# Beginning
-/

def withRun (s : Schedule σ) (ticket : Ticket) (store : σ) (notes : List Note) : Schedule σ :=
  { s with
    worker := { s.worker with running := s.worker.running ++ [ticket] }
    store := store
    runs := s.runs ++ [notes] }

theorem begin_eq (st : Setting σ) (index : Nat) (j : Job) (hphase : s.worker.phase = .serving)
    (hhand : s.worker.inHand = none) (hfree : s.hasFreeSlot = true) :
    ∃ ticket store notes, ticket.index = index ∧
      s.begin st index j = (s.withRun ticket store notes).goOn s.time := by
  let run := Run.ofJob st j s.time s.store
  refine ⟨⟨index, run.2, run.1.stage.outcome?⟩, run.1.store, run.1.notes.reverse, rfl, ?_⟩
  have hslots : s.worker.running.length < s.worker.slots := of_decide_eq_true hfree
  simp only [begin, Worker.take?, Worker.start?, hphase, hhand, hslots, Option.bind_some, if_true,
    withRun, run]

theorem StandsAt.withRun {j : Job} (h : StandsAt slots jobs (j :: rest) s b)
    (hphase : s.worker.phase = .serving) (hfree : s.hasFreeSlot = true) {ticket : Ticket}
    (hindex : ticket.index = s.runs.length) (store : σ) (notes : List Note) :
    StandsAt slots jobs rest (s.withRun ticket store notes) (b.run [.take, .start]) := by
  have htake := Bench.take_of_waiting (h.phase.trans hphase) h.hand h.waiting
  have hroom : b.take.worker.running.length < b.take.worker.slots := by
    rw [htake]
    dsimp only
    rw [h.length_running, h.slots_eq]
    exact of_decide_eq_true hfree
  have hstart := Bench.start_of_free (by rw [htake]) hroom
  have horderly := h.orderly.run [.take, .start]
  change StandsAt slots jobs rest _ b.take.start
  change b.take.start.IsOrderly slots at horderly
  rw [hstart, htake] at horderly ⊢
  exact
    { orderly := horderly
      arrived := h.arrived
      senders := h.senders
      waiting := rfl
      begun := by
        dsimp only [Schedule.withRun]
        rw [List.length_append, List.length_append, h.begun]
        rfl
      slots_eq := h.slots_eq
      phase := h.phase
      hand := rfl
      hand_free := h.hand_free
      running := by
        dsimp only [Schedule.withRun]
        rw [List.map_append, List.map_append, h.running, h.begun, List.map_singleton,
          List.map_singleton, hindex] }

theorem StandsAt.begin {j : Job} (st : Setting σ) (h : StandsAt slots jobs (j :: rest) s b)
    (hphase : s.worker.phase = .serving) (hfree : s.hasFreeSlot = true) :
    (∃ ms, StandsAt slots jobs rest (s.begin st s.runs.length j) (b.run ms)) ∧
      (s.begin st s.runs.length j).runs.length = s.runs.length + 1 ∧
      (s.begin st s.runs.length j).worker.phase = .serving := by
  rcases begin_eq st s.runs.length j hphase h.hand_free hfree with
    ⟨ticket, store, notes, hindex, hbegin⟩
  rcases (h.withRun hphase hfree hindex store notes).goOn s.time with ⟨ms, hgone⟩
  rw [hbegin]
  refine ⟨⟨[.take, .start] ++ ms, ?_⟩, List.length_append, hphase⟩
  rw [Bench.run_append]
  exact hgone

def ready (s : Schedule σ) : Schedule σ :=
  if s.hasFreeSlot then s else s.await

theorem serve_cons (st : Setting σ) (index : Nat) (j : Job) (rest : List Job)
    (hphase : s.worker.phase = .serving) :
    serve st index (j :: rest) s = serve st (index + 1) rest (s.ready.begin st index j) := by
  rw [serve, if_pos hphase]
  rfl

theorem hasFreeSlot_await (h : StandsAt slots jobs rest s b) (hfull : s.hasFreeSlot = false) :
    s.await.hasFreeSlot = true := by
  have hroom := h.orderly.room
  rw [h.length_running, h.slots_eq] at hroom
  have hslots : s.worker.slots = max slots 1 := h.slots_eq.symm.trans h.orderly.slots_eq
  have hall : ¬ s.worker.running.length < s.worker.slots := of_decide_eq_false hfull
  have hbusy : s.worker.running ≠ [] := by
    intro hnil
    rw [hnil, hslots] at hall
    exact hall (Nat.lt_of_lt_of_le Nat.zero_lt_one (Nat.le_max_right slots 1))
  exact decide_eq_true (Nat.lt_of_lt_of_le (length_await_lt hbusy) hroom)

theorem StandsAt.ready (h : StandsAt slots jobs rest s b) :
    (∃ ms, StandsAt slots jobs rest s.ready (b.run ms)) ∧ s.ready.hasFreeSlot = true ∧
      s.ready.worker.phase = s.worker.phase ∧ s.ready.runs = s.runs := by
  rw [Schedule.ready]
  cases hfree : s.hasFreeSlot with
  | true => exact ⟨⟨[], h⟩, hfree, rfl, rfl⟩
  | false => exact ⟨h.goOn _, hasFreeSlot_await h hfree, rfl, rfl⟩

theorem StandsAt.serve (st : Setting σ) (h : StandsAt slots jobs rest s b)
    (hphase : s.worker.phase = .serving) :
    (∃ ms, StandsAt slots jobs [] (s.serve st s.runs.length rest) (b.run ms)) ∧
      (s.serve st s.runs.length rest).worker.phase = .serving := by
  induction rest generalizing s b with
  | nil => exact ⟨⟨[], h⟩, hphase⟩
  | cons j rest ih =>
      rcases h.ready with ⟨⟨ms, hready⟩, hfree, hsame, hruns⟩
      rcases hready.begin st (hsame.trans hphase) hfree with ⟨⟨ms', hbegun⟩, hlength, hserving⟩
      rcases ih hbegun hserving with ⟨⟨ms'', hserved⟩, hstill⟩
      rw [hlength, hruns] at hserved hstill
      rw [serve_cons st s.runs.length j rest hphase]
      refine ⟨⟨ms ++ ms' ++ ms'', ?_⟩, hstill⟩
      rw [Bench.run_append, Bench.run_append]
      exact hserved

/-!
# Stopping
-/

theorem StandsAt.stop (h : StandsAt slots jobs rest s b) (hphase : s.worker.phase = .finishing)
    (hroom : s.worker.running.length + s.worker.awaited ≤ s.worker.slots) :
    StandsAt slots jobs [] { s with worker := { s.worker with phase := .stopped } } b.stop := by
  have hready : b.worker.phase = .finishing ∧
      b.worker.running.length + b.worker.awaited ≤ b.worker.slots := by
    refine ⟨h.phase.trans hphase, ?_⟩
    rw [Worker.awaited, h.length_running, h.slots_eq]
    exact hroom
  have hstop : b.stop =
      { b with worker := { b.worker with phase := .stopped }, queue := b.queue.close } := by
    simp only [Bench.stop, Worker.stop?, if_pos hready]
  have horderly := h.orderly.stop
  rw [hstop] at horderly ⊢
  exact
    { orderly := horderly
      arrived := h.arrived
      senders := h.senders
      waiting := rfl
      begun := h.begun
      slots_eq := h.slots_eq
      phase := rfl
      hand := h.hand
      hand_free := h.hand_free
      running := h.running }

theorem StandsAt.windDown {n : Nat} (h : StandsAt slots jobs rest s b)
    (hphase : s.worker.phase = .finishing) (hn : s.worker.running.length < n) :
    (∃ ms, StandsAt slots jobs [] (s.windDown n) (b.run ms)) ∧
      (s.windDown n).worker.phase = .stopped := by
  induction n generalizing s b with
  | zero => exact absurd hn (Nat.not_lt_zero _)
  | succ n ih =>
      by_cases hroom : s.worker.running.length + s.worker.awaited ≤ s.worker.slots
      · have hstop : s.worker.stop? = some { s.worker with phase := .stopped } :=
          if_pos ⟨hphase, hroom⟩
        simp only [Schedule.windDown, hstop]
        exact ⟨⟨[.stop], h.stop hphase hroom⟩, trivial⟩
      · have hstop : s.worker.stop? = none :=
          if_neg fun hready => hroom hready.right
        have hbusy : s.worker.running ≠ [] := by
          intro hnil
          rw [hnil, List.length_nil, Nat.zero_add, Worker.awaited] at hroom
          exact hroom (Nat.mod_le _ _)
        have hfewer := length_await_lt hbusy
        simp only [Schedule.windDown, hstop]
        rcases h.goOn (max s.time s.nextEnd) with ⟨ms, hgone⟩
        rcases ih hgone hphase (by rw [← await]; omega) with ⟨⟨ms', hdown⟩, hstopped⟩
        exact ⟨⟨ms ++ ms', by rw [Bench.run_append]; exact hdown⟩, hstopped⟩

/-!
# Whole schedules

There is a schedule unless the worker would need more slots than a worker can have.
-/

theorem Worker.ofConfig?_eq_some_iff {α : Type} {enabled : Bool} {slots : Nat} {w : Worker α} :
    Worker.ofConfig? enabled slots = some w ↔
      Worker.ofConfig enabled slots = w ∧ (enabled = true → slots ≤ Worker.most) := by
  rw [Worker.ofConfig?]
  cases enabled with
  | false => simp
  | true =>
      by_cases hmany : Worker.most < slots
      · simp [hmany]
      · simp [hmany, Nat.not_lt.mp hmany]

theorem ofJobs?_eq_some_iff {st : Setting σ} {enabled : Bool} {slots : Nat} {jobs : List Job}
    {store : σ} :
    ofJobs? st enabled slots jobs store = some s ↔
      ofJobs st enabled slots jobs store = s ∧ (enabled = true → slots ≤ Worker.most) := by
  rw [ofJobs?, Option.map_eq_some_iff]
  constructor
  · rintro ⟨w, hw, rfl⟩
    rcases Worker.ofConfig?_eq_some_iff.mp hw with ⟨rfl, hfew⟩
    exact ⟨rfl, hfew⟩
  · rintro ⟨rfl, hfew⟩
    exact ⟨_, Worker.ofConfig?_eq_some_iff.mpr ⟨rfl, hfew⟩, rfl⟩

theorem standsAt_start (capacity : Nat) (slots : Nat) (jobs : List Job) (store : σ)
    (hcapacity : jobs.length ≤ capacity) :
    StandsAt slots jobs jobs ⟨0, Worker.ofConfig true slots, store, {}, []⟩
      ((Bench.ofConfig capacity slots).run (jobs.map .put ++ [.leave])) := by
  have horderly := Bench.isOrderly_run capacity slots (jobs.map .put ++ [.leave])
  have hroom : ([] : List Job).length + jobs.length ≤ max capacity 1 := by
    rw [List.length_nil]
    omega
  have hputs := Bench.run_puts (b := Bench.ofConfig capacity slots) Nat.zero_lt_one rfl hroom
  rw [Bench.run_append, hputs] at horderly ⊢
  exact
    { orderly := horderly
      arrived := rfl
      senders := rfl
      waiting := rfl
      begun := rfl
      slots_eq := rfl
      phase := rfl
      hand := rfl
      hand_free := rfl
      running := rfl }

theorem close?_of_serving {α : Type} {w : Worker α} (hphase : w.phase = .serving)
    (hhand : w.inHand = none) : w.close? [] 0 = some { w with phase := .finishing } := by
  simp only [Worker.close?, hphase, hhand]

def finishing (s : Schedule σ) : Schedule σ :=
  { s with worker := { s.worker with phase := .finishing } }

theorem StandsAt.finishing (h : StandsAt slots jobs [] s b) (hphase : s.worker.phase = .serving) :
    StandsAt slots jobs [] s.finishing b.close := by
  have hclose : b.close = { b with worker := { b.worker with phase := .finishing } } := by
    simp only [Bench.close, h.waiting, h.senders,
      close?_of_serving (h.phase.trans hphase) h.hand]
  have horderly := h.orderly.close
  rw [hclose] at horderly ⊢
  exact { h with orderly := horderly, phase := rfl }

theorem ofJobs_eq (st : Setting σ) (slots : Nat) (jobs : List Job) (store : σ)
    (hserve : serve st 0 jobs ⟨0, Worker.ofConfig true slots, store, {}, []⟩ = s)
    (hphase : s.worker.phase = .serving) (hhand : s.worker.inHand = none) :
    ofJobs st true slots jobs store =
      { s.finishing.windDown (jobs.length + 1) with
        runs := (s.finishing.windDown (jobs.length + 1)).soFar } := by
  simp only [ofJobs, ofWorker, hserve, close?_of_serving hphase hhand]
  rfl

theorem StandsAt.soFar (h : StandsAt slots jobs rest s b) :
    StandsAt slots jobs rest { s with runs := s.soFar } b :=
  { h with begun := by rw [Schedule.soFar, List.length_map]; exact h.begun }

theorem StandsAt.length_running_le (h : StandsAt slots jobs rest s b) :
    s.worker.running.length ≤ jobs.length := by
  have hrunning := h.length_running
  have harrived := congrArg List.length h.orderly.arrived_eq
  have htaken := congrArg List.length h.orderly.taken_eq
  have hstarted := h.orderly.started_perm.length_eq
  rw [h.arrived, List.length_append, List.length_map] at harrived
  rw [List.length_append] at htaken hstarted
  omega

/-- A schedule is a run of the bench, at the end of which the worker has stopped. -/
theorem standsAt_ofJobs (st : Setting σ) (capacity slots : Nat) (jobs : List Job) (store : σ)
    (hcapacity : jobs.length ≤ capacity) :
    (∃ ms, StandsAt slots jobs [] (ofJobs st true slots jobs store)
        ((Bench.ofConfig capacity slots).run ms)) ∧
      (ofJobs st true slots jobs store).worker.phase = .stopped := by
  have hstart := standsAt_start capacity slots jobs store hcapacity
  rcases hstart.serve st rfl with ⟨⟨ms, hserved⟩, hserving⟩
  have hfinishing := hserved.finishing hserving
  have hrunning := Nat.lt_succ_of_le hfinishing.length_running_le
  rcases hfinishing.windDown rfl hrunning with ⟨⟨ms', hdown⟩, hstopped⟩
  rw [ofJobs_eq st slots jobs store rfl hserving hserved.hand_free]
  refine ⟨⟨jobs.map .put ++ [.leave] ++ ms ++ [.close] ++ ms', ?_⟩, hstopped⟩
  rw [Bench.run_append, Bench.run_append, Bench.run_append]
  exact hdown.soFar

/-- A worker with a number of slots that 32 bits can hold begins all jobs of its queue, and none of
them is running when it stops. -/
theorem ofJobs_done (st : Setting σ) {slots : Nat} (hslots : slots < 4294967296)
    (jobs : List Job) (store : σ) :
    (ofJobs st true slots jobs store).worker.running = [] ∧
      (ofJobs st true slots jobs store).runs.length = jobs.length := by
  rcases standsAt_ofJobs st jobs.length slots jobs store (Nat.le_refl _) with
    ⟨⟨ms, hstands⟩, hstopped⟩
  have hphase := hstands.phase.trans hstopped
  have hrunning := hstands.orderly.none_running hslots hphase
  have hstarted := congrArg List.length (hstands.orderly.all_started hphase)
  have htaken := hstands.orderly.taken_eq
  rw [hstands.hand, Option.toList_none, List.append_nil] at htaken
  rw [List.length_map, ← htaken, hstands.begun, hstands.arrived] at hstarted
  refine ⟨?_, hstarted⟩
  have hempty := hstands.running
  rw [hrunning] at hempty
  exact List.map_eq_nil_iff.mp hempty.symm

end Schedule
end Translation
end Parley
