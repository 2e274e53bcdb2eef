import Parley.Translation.Job
import Parley.Translation.Worker

/-!
# Schedules

When a worker's calls are made, in milliseconds from its start. Store calls
take no time and backend calls as long as the backend says. All chunks of a job
go out together, the lock is restamped at fixed intervals while they are out,
and what is due at one instant comes in the order of the chunks.
-/

namespace Parley
namespace Translation

def restampInterval : Nat := 30000

structure Timing where
  delay : String → Nat
  reply : String → String → Markup → Reply

inductive Happening where
  | refreshed
  | checked
  | sent (chunk : String)
  /-- A chunk that took time has come back. -/
  | back (chunk : String)
  | saved (entry : Entry)
  | released
  deriving DecidableEq, Repr

structure Note where
  time : Nat
  what : Happening
  deriving DecidableEq, Repr

structure Setting (σ : Type) where
  access : Access σ
  windows : Windows
  timing : Timing
  /-- The instant that entries are dated with, in seconds. -/
  now : Int

structure Run (σ : Type) where
  stage : Stage
  store : σ
  notes : List Note

namespace Run

variable {σ : Type}

def note (r : Run σ) (time : Nat) (what : Happening) : Run σ :=
  { r with notes := ⟨time, what⟩ :: r.notes }

def tell (r : Run σ) (chunks : Nat) (news : News) : Run σ :=
  { r with stage := r.stage.next chunks news }

def isWaiting (r : Run σ) : Bool :=
  match r.stage with
  | .translating _ => true
  | _ => false

def happening? (st : Setting σ) (j : Job) : Stage → Option Happening
  | .starting => some .refreshed
  | .checking => some .checked
  | .saving outputs => some (.saved (j.entry st.windows st.now outputs))
  | .releasing _ => some .released
  | .translating _ => none
  | .ended _ => none

def call (st : Setting σ) (j : Job) (chunks time : Nat) (r : Run σ) : Run σ :=
  match r.stage.call st.access st.windows st.now j r.store, happening? st j r.stage with
  | some (news, store), some what =>
    (({ r with store := store }).note time what).tell chunks news
  | _, _ => r

/-- No job makes more calls than this before its chunks go out, or after they are back. -/
def callsInARow : Nat := 4

def callsWithin (st : Setting σ) (j : Job) (chunks time : Nat) : Nat → Run σ → Run σ
  | 0, r => r
  | n + 1, r => callsWithin st j chunks time n (r.call st j chunks time)

def calls (st : Setting σ) (j : Job) (chunks time : Nat) (r : Run σ) : Run σ :=
  callsWithin st j chunks time callsInARow r

/-!
# Chunks
-/

structure Due where
  time : Nat
  index : Nat
  chunk : String

def Due.before (d e : Due) : Bool :=
  d.time < e.time || (d.time == e.time && d.index < e.index)

def insertDue (d : Due) : List Due → List Due
  | [] => [d]
  | e :: rest => if d.before e then d :: e :: rest else e :: insertDue d rest

def reply (st : Setting σ) (j : Job) (chunk : String) : Reply :=
  st.timing.reply chunk j.request.locale j.request.markup

/-- Sends chunks in order, as long as none that needs no time ends the wait, and gives those that
are out. -/
def send (st : Setting σ) (j : Job) (chunks time : Nat) :
    Nat → List String → List Due → Run σ → Run σ × List Due
  | _, [], due, r => (r, due)
  | i, chunk :: rest, due, r =>
    if r.isWaiting then
      let r := r.note time (.sent chunk)
      let delay := st.timing.delay chunk
      if delay = 0 then
        send st j chunks time (i + 1) rest due
          (r.tell chunks (.translated i (reply st j chunk)))
      else send st j chunks time (i + 1) rest (insertDue ⟨time + delay, i, chunk⟩ due) r
    else (r, due)

def restamps (st : Setting σ) (j : Job) (chunks start : Nat) : Nat → Nat → Run σ → Run σ × Nat
  | 0, k, r => (r, start + (k - 1) * restampInterval)
  | n + 1, k, r =>
    let time := start + k * restampInterval
    let (news, store) := restamp st.access j r.store
    let r := (({ r with store := store }).note time .refreshed).tell chunks news
    if r.isWaiting then restamps st j chunks start n (k + 1) r else (r, time)

def restampsBefore (start time : Nat) : Nat :=
  (time - start - 1) / restampInterval

/-- Receives chunks as they come back, after `done` restampings. Gives the instant of the last
change. -/
def receive (st : Setting σ) (j : Job) (chunks start : Nat) :
    Nat → List Due → Run σ → Run σ × Nat
  | done, [], r => (r, start + done * restampInterval)
  | done, d :: rest, r =>
    let n := restampsBefore start d.time
    let (r, last) := restamps st j chunks start (n - done) (done + 1) r
    if r.isWaiting then
      let r := (r.note d.time (.back d.chunk)).tell chunks
        (.translated d.index (reply st j d.chunk))
      if r.isWaiting then receive st j chunks start n rest r else (r, d.time)
    else (r, last)

def ofJob (st : Setting σ) (j : Job) (start : Nat) (store : σ) : Run σ × Nat :=
  let chunks := (j.document st.windows).chunks
  let n := chunks.length
  let r := calls st j n start ⟨.starting, store, []⟩
  let (r, due) := send st j n start 0 chunks [] r
  let (r, time) := if r.isWaiting then receive st j n start 0 due r else (r, start)
  (r.calls st j n time, time)

end Run

/-!
# Jobs in slots
-/

/-- A job on its way through the worker, by its place in the queue: when and how it ends. -/
structure Ticket where
  index : Nat
  ends : Nat
  outcome? : Option Outcome
  deriving DecidableEq, Repr

structure Schedule (σ : Type) where
  time : Nat
  worker : Worker Ticket
  store : σ
  counters : Counters
  runs : List (List Note)

namespace Schedule

variable {σ : Type}

def nextEnd (s : Schedule σ) : Nat :=
  match s.worker.running with
  | [] => s.time
  | t :: rest => rest.foldl (fun ends t => min ends t.ends) t.ends

def goOn (time : Nat) (s : Schedule σ) : Schedule σ :=
  let ended := s.worker.running.filter fun t => t.ends ≤ time
  { s with
    time := time
    worker := s.worker.finish fun t => t.ends ≤ time
    counters := (ended.filterMap Ticket.outcome?).foldl Counters.add s.counters }

def await (s : Schedule σ) : Schedule σ :=
  s.goOn (max s.time s.nextEnd)

def begin (st : Setting σ) (index : Nat) (j : Job) (s : Schedule σ) : Schedule σ :=
  let (run, ends) := Run.ofJob st j s.time s.store
  let ticket : Ticket := ⟨index, ends, run.stage.outcome?⟩
  match (s.worker.take? [ticket]).bind fun (w, _) => w.start? with
  | some (_, worker) =>
    goOn s.time
      { s with
        worker := worker
        store := run.store
        runs := s.runs ++ [run.notes.reverse] }
  | none => s

def hasFreeSlot (s : Schedule σ) : Bool :=
  s.worker.running.length < s.worker.slots

def serve (st : Setting σ) : Nat → List Job → Schedule σ → Schedule σ
  | _, [], s => s
  | index, j :: rest, s =>
    if s.worker.phase = .serving then
      let s := if s.hasFreeSlot then s else s.await
      serve st (index + 1) rest (s.begin st index j)
    else s

def windDown : Nat → Schedule σ → Schedule σ
  | 0, s => s
  | n + 1, s =>
    match s.worker.stop? with
    | some worker => { s with worker := worker }
    | none => windDown n s.await

def soFar (s : Schedule σ) : List (List Note) :=
  s.runs.map fun notes => notes.filter fun n => n.time ≤ s.time

/-- A worker from its start to its stop, on a queue that nothing is added to. A job that is still
running then is seen no further. -/
def ofWorker (st : Setting σ) (worker : Worker Ticket) (jobs : List Job) (store : σ) :
    Schedule σ :=
  let s := serve st 0 jobs ⟨0, worker, store, {}, []⟩
  match s.worker.close? [] 0 with
  | some worker =>
    let s := windDown (jobs.length + 1) { s with worker := worker }
    { s with runs := s.soFar }
  | none => s

def ofJobs (st : Setting σ) (enabled : Bool) (slots : Nat) (jobs : List Job) (store : σ) :
    Schedule σ :=
  ofWorker st (Worker.ofConfig enabled slots) jobs store

/-- There is no schedule if the worker breaks down. -/
def ofJobs? (st : Setting σ) (enabled : Bool) (slots : Nat) (jobs : List Job) (store : σ) :
    Option (Schedule σ) :=
  (Worker.ofConfig? enabled slots).map fun worker => ofWorker st worker jobs store

end Schedule
end Translation
end Parley
