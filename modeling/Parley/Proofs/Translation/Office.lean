import Parley.Translation.Job
import Parley.Translation.Worker

/-!
# The office

Requests, the worker and its jobs, all at work on one store and one queue. Each
takes its next step whenever it likes: one call of the store, one operation on
the queue, one chunk that goes out to the backend or comes back. What the backend
was asked and what it answered is kept on record. A run of the office is a list of
moves, in any order, and a move that is not possible changes nothing.
-/

namespace Parley
namespace Translation

structure Errand where
  request : Request
  stage : Asking

structure Task where
  job : Job
  stage : Stage
  /-- The chunks that went out to the backend, by their numbers. -/
  out : List Nat

structure Letter where
  asker : Job
  number : Nat
  chunk : String
  locale : String
  markup : Markup

structure Office where
  desk : Desk
  /-- The requests that came and how far each is. -/
  errands : List Errand
  worker : Worker Job
  /-- All jobs that were ever started, in order. -/
  tasks : List Task
  posted : List Letter
  answers : List (Letter × Reply)

def Stage.isOver : Stage → Bool
  | .ended _ => true
  | _ => false

def Job.letter (j : Job) (number : Nat) (chunk : String) : Letter :=
  ⟨j, number, chunk, j.request.locale, j.request.markup⟩

namespace Task

/-- The letter that asks for a chunk, as long as the job is translating. -/
def letter? (w : Windows) (t : Task) (chunk : Nat) : Option Letter :=
  match t.stage with
  | .translating _ => (t.job.document w).chunks[chunk]?.map (t.job.letter chunk)
  | _ => none

def awaits (t : Task) (chunk : Nat) : Bool :=
  match t.stage with
  | .translating replies =>
    match replies[chunk]? with
    | some none => t.out.contains chunk
    | _ => false
  | _ => false

end Task

namespace Office

def ofCache (cache : Cache) (capacity : Nat) (enabled : Bool) (slots : Nat) : Office where
  desk := ⟨⟨cache, true, .empty, true⟩, Queue.ofCapacity capacity, {}⟩
  errands := []
  worker := Worker.ofConfig enabled slots
  tasks := []
  posted := []
  answers := []

abbrev store (o : Office) : Store :=
  o.desk.store

def requests (o : Office) : List Request :=
  o.errands.map Errand.request

def withStore (o : Office) (store : Store) : Office :=
  { o with desk := { o.desk with store := store } }

/-!
# Requests
-/

def come (o : Office) (r : Request) : Office :=
  { o with
    desk :=
      { o.desk with
        counters := { o.desk.counters with requested := o.desk.counters.requested + 1 } }
    errands := o.errands ++ [⟨r, .looking⟩] }

def proceed (o : Office) (errand : Nat) (now : Int) : Office :=
  match o.errands[errand]? with
  | none => o
  | some e =>
    let (stage, desk) := Asking.step now e.request e.stage o.desk
    { o with desk := desk, errands := o.errands.set errand { e with stage := stage } }

/-!
# The worker
-/

def take (o : Office) : Office :=
  match o.worker.take? o.desk.queue.jobs with
  | none => o
  | some (worker, jobs) =>
    { o with
      desk := { o.desk with queue := { o.desk.queue with jobs := jobs } }
      worker := worker }

def start (o : Office) : Office :=
  match o.worker.start? with
  | none => o
  | some (job, worker) => { o with worker := worker, tasks := o.tasks ++ [⟨job, .starting, []⟩] }

/-- A worker that has stopped leaves the queue to nobody. -/
def shut (o : Office) : Office :=
  if o.worker.phase = .stopped then
    { o with desk := { o.desk with queue := o.desk.queue.close } }
  else o

/-!
# Jobs
-/

def tell (w : Windows) (o : Office) (task : Nat) (t : Task) (news : News) : Office :=
  let stage := t.stage.next (t.job.document w).chunks.length news
  { o with
    desk := { o.desk with counters := o.desk.counters.between t.stage stage }
    worker :=
      if stage.isOver then o.worker.finish fun j => j.token = t.job.token else o.worker
    tasks := o.tasks.set task { t with stage := stage } }

def call (w : Windows) (o : Office) (task : Nat) (now : Int) : Office :=
  match o.tasks[task]? with
  | none => o
  | some t =>
    match t.stage.call (Store.access now) w now t.job o.store with
    | none => o
    | some (news, store) => tell w (o.withStore store) task t news

def restamp (w : Windows) (o : Office) (task : Nat) (now : Int) : Office :=
  match o.tasks[task]? with
  | none => o
  | some t =>
    if t.stage.isRunning then
      let (news, store) := Translation.restamp (Store.access now) t.job o.store
      tell w (o.withStore store) task t news
    else o

def post (w : Windows) (o : Office) (task chunk : Nat) : Office :=
  match o.tasks[task]? with
  | none => o
  | some t =>
    match t.letter? w chunk with
    | none => o
    | some letter =>
      if t.out.contains chunk then o
      else
        { o with
          tasks := o.tasks.set task { t with out := chunk :: t.out }
          posted := o.posted ++ [letter] }

def hear (w : Windows) (o : Office) (task chunk : Nat) (reply : Reply) : Office :=
  match o.tasks[task]? with
  | none => o
  | some t =>
    match t.letter? w chunk with
    | none => o
    | some letter =>
      if t.awaits chunk then
        tell w { o with answers := o.answers ++ [(letter, reply)] } task t
          (.translated chunk reply)
      else o

def sweep (o : Office) (cutoff : Int) : Office :=
  o.withStore (o.store.sweep cutoff).2

/-!
# Runs
-/

inductive Move where
  | come (r : Request)
  | proceed (errand : Nat) (now : Int)
  | take
  | start
  | shut
  | call (task : Nat) (now : Int)
  | restamp (task : Nat) (now : Int)
  | post (task chunk : Nat)
  | hear (task chunk : Nat) (reply : Reply)
  | sweep (cutoff : Int)

def Move.isSweep : Move → Bool
  | .sweep _ => true
  | _ => false

def move (w : Windows) (o : Office) : Move → Office
  | .come r => o.come r
  | .proceed errand now => o.proceed errand now
  | .take => o.take
  | .start => o.start
  | .shut => o.shut
  | .call task now => o.call w task now
  | .restamp task now => o.restamp w task now
  | .post task chunk => o.post w task chunk
  | .hear task chunk reply => o.hear w task chunk reply
  | .sweep cutoff => o.sweep cutoff

def run (w : Windows) (o : Office) (ms : List Move) : Office :=
  ms.foldl (move w) o

theorem run_induction {motive : Office → Prop} {w : Windows} {o : Office} {ms : List Move}
    (start : motive o) (step : ∀ o, motive o → ∀ m ∈ ms, motive (o.move w m)) :
    motive (o.run w ms) := by
  induction ms generalizing o with
  | nil => exact start
  | cons m ms ih =>
      apply ih
      · exact step o start m List.mem_cons_self
      · intro o ho m' hm'
        exact step o ho m' (List.mem_cons_of_mem m hm')

theorem run_append (w : Windows) (o : Office) (ms ms' : List Move) :
    o.run w (ms ++ ms') = (o.run w ms).run w ms' :=
  List.foldl_append

/-!
# What moves do

Each move changes nothing, or it changes the office as it says here.
-/

variable (w : Windows) (o : Office)

theorem proceed_eq (errand : Nat) (now : Int) :
    o.proceed errand now = o ∨
      ∃ e, o.errands[errand]? = some e ∧
        o.proceed errand now =
          { o with
            desk := (Asking.step now e.request e.stage o.desk).2
            errands := o.errands.set errand
              { e with stage := (Asking.step now e.request e.stage o.desk).1 } } := by
  unfold proceed
  split
  · exact Or.inl rfl
  · rename_i e he
    exact Or.inr ⟨e, he, rfl⟩

theorem take_eq :
    o.take = o ∨
      ∃ job rest, o.desk.queue.jobs = job :: rest ∧ o.worker.inHand = none ∧
        o.take =
          { o with
            desk := { o.desk with queue := { o.desk.queue with jobs := rest } }
            worker := { o.worker with inHand := some job } } := by
  unfold take
  split
  · exact Or.inl rfl
  · rename_i worker rest htake
    unfold Worker.take? at htake
    split at htake
    · rename_i job _ _ hhand hjobs
      cases htake
      exact Or.inr ⟨job, rest, hjobs, hhand, rfl⟩
    · cases htake

theorem start_eq :
    o.start = o ∨
      ∃ job, o.worker.inHand = some job ∧
        o.start =
          { o with
            worker := { o.worker with inHand := none, running := o.worker.running ++ [job] }
            tasks := o.tasks ++ [⟨job, .starting, []⟩] } := by
  unfold start
  split
  · exact Or.inl rfl
  · rename_i job worker hstart
    unfold Worker.start? at hstart
    split at hstart
    · cases hstart
    · rename_i hhand
      split at hstart
      · cases hstart
        exact Or.inr ⟨_, hhand, rfl⟩
      · cases hstart

theorem call_eq (task : Nat) (now : Int) :
    o.call w task now = o ∨
      ∃ t news store, o.tasks[task]? = some t ∧
        t.stage.call (Store.access now) w now t.job o.store = some (news, store) ∧
        o.call w task now = (o.withStore store).tell w task t news := by
  unfold call
  split
  · exact Or.inl rfl
  · rename_i t ht
    split
    · exact Or.inl rfl
    · rename_i news store hcall
      exact Or.inr ⟨t, news, store, ht, hcall, rfl⟩

theorem restamp_eq (task : Nat) (now : Int) :
    o.restamp w task now = o ∨
      ∃ t, o.tasks[task]? = some t ∧ t.stage.isRunning = true ∧
        o.restamp w task now =
          (o.withStore (o.store.refresh t.job.key t.job.token now).2).tell w task t
            (.restamped (o.store.refresh t.job.key t.job.token now).1) := by
  unfold restamp
  split
  · exact Or.inl rfl
  · rename_i t ht
    split
    · rename_i hrunning
      exact Or.inr ⟨t, ht, hrunning, rfl⟩
    · exact Or.inl rfl

end Office

theorem Task.letter?_eq_some {w : Windows} {t : Task} {chunk : Nat} {letter : Letter}
    (h : t.letter? w chunk = some letter) :
    ∃ replies text, t.stage = .translating replies ∧
      (t.job.document w).chunks[chunk]? = some text ∧ letter = t.job.letter chunk text := by
  unfold Task.letter? at h
  split at h
  · rename_i replies hstage
    rcases Option.map_eq_some_iff.mp h with ⟨text, htext, rfl⟩
    exact ⟨replies, text, hstage, htext, rfl⟩
  · cases h

theorem Task.awaits_eq_true {t : Task} {chunk : Nat} {replies : List (Option Reply)}
    (hstage : t.stage = .translating replies) (h : t.awaits chunk = true) :
    replies[chunk]? = some none ∧ chunk ∈ t.out := by
  simp only [Task.awaits, hstage] at h
  split at h
  · rename_i hreply
    exact ⟨hreply, by simpa using h⟩
  · cases h

namespace Office

variable (w : Windows) (o : Office)

theorem post_eq (task chunk : Nat) :
    o.post w task chunk = o ∨
      ∃ t replies text, o.tasks[task]? = some t ∧ t.stage = .translating replies ∧
        (t.job.document w).chunks[chunk]? = some text ∧
        o.post w task chunk =
          { o with
            tasks := o.tasks.set task { t with out := chunk :: t.out }
            posted := o.posted ++ [t.job.letter chunk text] } := by
  unfold post
  split
  · exact Or.inl rfl
  · rename_i t ht
    split
    · exact Or.inl rfl
    · rename_i letter hletter
      rcases Task.letter?_eq_some hletter with ⟨replies, text, hstage, htext, rfl⟩
      split
      · exact Or.inl rfl
      · exact Or.inr ⟨t, replies, text, ht, hstage, htext, rfl⟩

theorem hear_eq (task chunk : Nat) (reply : Reply) :
    o.hear w task chunk reply = o ∨
      ∃ t replies text, o.tasks[task]? = some t ∧ t.stage = .translating replies ∧
        replies[chunk]? = some none ∧ chunk ∈ t.out ∧
        (t.job.document w).chunks[chunk]? = some text ∧
        o.hear w task chunk reply =
          tell w { o with answers := o.answers ++ [(t.job.letter chunk text, reply)] } task t
            (.translated chunk reply) := by
  unfold hear
  split
  · exact Or.inl rfl
  · rename_i t ht
    split
    · exact Or.inl rfl
    · rename_i letter hletter
      rcases Task.letter?_eq_some hletter with ⟨replies, text, hstage, htext, rfl⟩
      split
      · rename_i hawaits
        have hwaiting := Task.awaits_eq_true hstage hawaits
        exact Or.inr
          ⟨t, replies, text, ht, hstage, hwaiting.left, hwaiting.right, htext, rfl⟩
      · exact Or.inl rfl

/-!
Most moves leave the store as it is.
-/

theorem store_take : o.take.store = o.store := by
  rcases o.take_eq with hsame | ⟨_, _, _, _, heq⟩
  · rw [hsame]
  · rw [heq]

theorem store_start : o.start.store = o.store := by
  rcases o.start_eq with hsame | ⟨_, _, heq⟩
  · rw [hsame]
  · rw [heq]

theorem store_shut : o.shut.store = o.store := by
  unfold shut
  split <;> rfl

theorem store_post (task chunk : Nat) : (o.post w task chunk).store = o.store := by
  rcases o.post_eq w task chunk with hsame | ⟨_, _, _, _, _, _, heq⟩
  · rw [hsame]
  · rw [heq]

theorem store_hear (task chunk : Nat) (reply : Reply) :
    (o.hear w task chunk reply).store = o.store := by
  rcases o.hear_eq w task chunk reply with hsame | ⟨_, _, _, _, _, _, _, _, heq⟩
  · rw [hsame]
  · rw [heq]
    rfl

/-!
# Jobs in flight
-/

end Office

/-- The token of the lock that was taken and is neither handed on nor given back. -/
def Asking.token? : Asking → Option Token
  | .queueing token | .returning token => some token
  | _ => none

def Errand.flight? (e : Errand) : Option Job :=
  e.stage.token?.map fun token => ⟨token, e.request⟩

def Task.flight? (t : Task) : Option Job :=
  if t.stage.isOver then none else some t.job

/-- The jobs between the lock that was taken for them and their end: not yet queued or about to be
given up, in the queue, in the worker's hand, or running. -/
def Office.flights (o : Office) : List Job :=
  o.errands.filterMap Errand.flight? ++ o.desk.queue.jobs ++ o.worker.inHand.toList ++
    o.tasks.filterMap Task.flight?

end Translation
end Parley
