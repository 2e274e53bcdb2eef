import Parley.Translation.Status
import Parley.Translation.Store

/-!
# Requests

A request is answered from the cache, or made a job that is locked and queued,
or told to come back later. It gets there in steps, and between two of them
anything may happen to the store and the queue.
-/

namespace Parley
namespace Translation

structure Request where
  text : String
  locale : String
  markup : Markup
  part : Part
  deriving DecidableEq, Repr

def Request.key (r : Request) : ContentKey :=
  ContentKey.ofText r.text r.locale

structure Job where
  token : Token
  request : Request
  deriving DecidableEq, Repr

def Job.key (j : Job) : ContentKey :=
  j.request.key

/-!
# The queue
-/

/-- Jobs that wait for the worker, first come first; nobody takes them from a closed queue. -/
structure Queue where
  jobs : List Job
  capacity : Nat
  isOpen : Bool
  deriving DecidableEq, Repr

namespace Queue

/-- The most jobs for which a queue can have places. -/
def most : Nat :=
  2305843009213693951

def ofCapacity (n : Nat) : Queue :=
  ⟨[], max n 1, true⟩

def free (q : Queue) : Nat :=
  q.capacity - q.jobs.length

def offer? (q : Queue) (j : Job) : Option Queue :=
  if q.isOpen && 0 < q.free then some { q with jobs := q.jobs ++ [j] } else none

def take? (q : Queue) : Option (Job × Queue) :=
  match q.jobs with
  | [] => none
  | j :: rest => some (j, { q with jobs := rest })

/-- Nobody takes from the queue any more, and what waits in it is dropped. -/
def close (q : Queue) : Queue :=
  { q with jobs := [], isOpen := false }

def describe (q : Queue) : String :=
  "TranslationPipeline \x7b queue_capacity: " ++ toString q.capacity ++ ", queue_free: " ++
    toString q.free ++ ", .. \x7d"

end Queue

/-!
# Counters
-/

structure Counters where
  requested : Nat := 0
  ready : Nat := 0
  pending : Nat := 0
  completed : Nat := 0
  failed : Nat := 0
  deriving DecidableEq, Repr

structure Desk where
  store : Store
  queue : Queue
  counters : Counters
  deriving DecidableEq, Repr

/-!
# Steps
-/

inductive Asking where
  /-- The cache is to be asked. -/
  | looking
  /-- The lock is to be taken. -/
  | locking
  /-- The job is to be queued. -/
  | queueing (token : Token)
  /-- The job was not queued, and the lock is to be given back. -/
  | returning (token : Token)
  | answered (answer : Except StoreError Status)

namespace Asking

def look (r : Request) (d : Desk) : Asking × Desk :=
  match d.store.get r.key with
  | .error e => (.answered (.error e), d)
  | .ok (some entry) =>
    (.answered (.ok (.ready entry.content entry.markup)),
      { d with counters := { d.counters with ready := d.counters.ready + 1 } })
  | .ok none =>
    (.locking, { d with counters := { d.counters with pending := d.counters.pending + 1 } })

def lock (now : Int) (r : Request) (d : Desk) : Asking × Desk :=
  let (result, store) := d.store.tryLock r.key now
  let d := { d with store := store }
  match result with
  | .error e => (.answered (.error e), d)
  | .ok none => (.answered (.ok .pending), d)
  | .ok (some token) => (.queueing token, d)

def queue (r : Request) (token : Token) (d : Desk) : Asking × Desk :=
  match d.queue.offer? ⟨token, r⟩ with
  | some q => (.answered (.ok .pending), { d with queue := q })
  | none => (.returning token, d)

def giveBack (r : Request) (token : Token) (d : Desk) : Asking × Desk :=
  let (result, store) := d.store.unlock r.key token
  (.answered (result.map fun _ => .pending), { d with store := store })

def step (now : Int) (r : Request) : Asking → Desk → Asking × Desk
  | .looking, d => look r d
  | .locking, d => lock now r d
  | .queueing token, d => queue r token d
  | .returning token, d => giveBack r token d
  | .answered a, d => (.answered a, d)

def steps (now : Int) (r : Request) : Nat → Asking → Desk → Asking × Desk
  | 0, a, d => (a, d)
  | n + 1, a, d =>
    let (a, d) := step now r a d
    steps now r n a d

end Asking

namespace Desk

/-- A request that nothing comes between: four steps answer it. -/
def ask (d : Desk) (now : Int) (r : Request) : Except StoreError Status × Desk :=
  let d := { d with counters := { d.counters with requested := d.counters.requested + 1 } }
  match Asking.steps now r 4 .looking d with
  | (.answered answer, d) => (answer, d)
  | (_, d) => (.ok .pending, d)

end Desk
end Translation
end Parley
