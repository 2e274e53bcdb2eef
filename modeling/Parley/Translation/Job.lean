import Parley.Backend.Failure
import Parley.Document
import Parley.Translation.Request

/-!
# Jobs

A job restamps its lock, looks for its entry once more, has all chunks
translated, writes the entry and gives the lock back. A failure on the way ends
the work, not the duty to give the lock back; a lock that is lost ends both.
-/

namespace Parley
namespace Translation

structure Windows where
  markdown : Nat := 10000
  html : Nat := 15000
  deriving DecidableEq, Repr

def unlimited : Nat := 18446744073709551615

def Windows.of (w : Windows) : Markup → Nat
  | .markdown => w.markdown
  | .html => w.html
  | .plain => unlimited

def Job.document (w : Windows) (j : Job) : Document :=
  Document.ofText j.request.markup (w.of j.request.markup) j.request.text

def Job.entry (w : Windows) (now : Int) (j : Job) (outputs : List String) : Entry where
  key := j.key
  content := (j.document w).reassemble outputs
  locale := j.request.locale
  markup := j.request.markup
  part := j.request.part
  createdAt := now

/-!
# Chunks
-/

abbrev Reply := Except Backend.Failure String

inductive Verdict where
  | waiting
  | failed
  | whole (outputs : List String)
  deriving DecidableEq, Repr

/-- Replies taken in order: one that failed counts when all before it are there. -/
def inOrder : List (Option Reply) → Verdict
  | [] => .whole []
  | none :: _ => .waiting
  | some (.error _) :: _ => .failed
  | some (.ok output) :: rest =>
    match inOrder rest with
    | .whole outputs => .whole (output :: outputs)
    | verdict => verdict

def hasFailed : Option Reply → Bool
  | some (.error _) => true
  | _ => false

/-- Up to this many chunks, the first failure counts at once. -/
def eagerUpTo : Nat := 30

def verdict (replies : List (Option Reply)) : Verdict :=
  if replies.length ≤ eagerUpTo && replies.any hasFailed then .failed else inOrder replies

/-!
# Stages
-/

inductive Outcome where
  | completed
  /-- The entry was there already. -/
  | skipped
  | failed
  /-- The lock was lost before the job started. -/
  | lost
  /-- The lock was lost while the job was running. -/
  | abandoned
  deriving DecidableEq, Repr

inductive Stage where
  /-- The lock is to be restamped. -/
  | starting
  /-- The cache is to be asked. -/
  | checking
  /-- The chunks are out to be translated. -/
  | translating (replies : List (Option Reply))
  /-- The entry is to be written. -/
  | saving (outputs : List String)
  /-- The lock is to be given back. -/
  | releasing (outcome : Outcome)
  | ended (outcome : Outcome)

inductive News where
  | refreshed (result : Except StoreError Bool)
  | found (result : Except StoreError Bool)
  | translated (chunk : Nat) (reply : Reply)
  | saved (result : Except StoreError Bool)
  | released
  /-- The lock was restamped while the job was running. -/
  | restamped (result : Except StoreError Bool)

namespace Stage

def ofVerdict (replies : List (Option Reply)) : Stage :=
  match verdict replies with
  | .waiting => .translating replies
  | .failed => .releasing .failed
  | .whole outputs => .saving outputs

def isRunning : Stage → Bool
  | .checking => true
  | .translating _ => true
  | .saving _ => true
  | _ => false

def outcome? : Stage → Option Outcome
  | .releasing outcome => some outcome
  | .ended outcome => some outcome
  | _ => none

def next (chunks : Nat) : Stage → News → Stage
  | .starting, .refreshed (.ok true) => .checking
  | .starting, .refreshed (.ok false) => .ended .lost
  | .starting, .refreshed (.error _) => .releasing .failed
  | .checking, .found (.ok true) => .releasing .skipped
  | .checking, .found (.ok false) => ofVerdict (List.replicate chunks none)
  | .checking, .found (.error _) => .releasing .failed
  | .translating replies, .translated chunk reply => ofVerdict (replies.set chunk (some reply))
  | .saving _, .saved (.ok true) => .releasing .completed
  | .saving _, .saved (.ok false) => .releasing .skipped
  | .saving _, .saved (.error _) => .releasing .failed
  | .releasing outcome, .released => .ended outcome
  | stage, .restamped (.ok false) => if stage.isRunning then .ended .abandoned else stage
  | stage, _ => stage

end Stage

/-!
# Counting
-/

def Counters.add (c : Counters) : Outcome → Counters
  | .completed => { c with completed := c.completed + 1 }
  | .failed => { c with failed := c.failed + 1 }
  | .abandoned => { c with failed := c.failed + 1 }
  | .skipped => c
  | .lost => c

def Counters.between (c : Counters) (before after : Stage) : Counters :=
  match before.outcome?, after.outcome? with
  | none, some outcome => c.add outcome
  | _, _ => c

/-!
# Calls
-/

structure Access (σ : Type) where
  refresh : ContentKey → Token → σ → Except StoreError Bool × σ
  has : ContentKey → σ → Except StoreError Bool × σ
  insert : Entry → σ → Except StoreError Bool × σ
  unlock : ContentKey → Token → σ → Except StoreError Unit × σ

def Store.access (now : Int) : Access Store where
  refresh key token s := s.refresh key token now
  has key s := ((s.get key).map Option.isSome, s)
  insert e s := s.insert e
  unlock key token s := s.unlock key token

/-- The call that a stage is about to make, and what comes of it; while chunks are out, and at the
end, there is none. -/
def Stage.call (access : Access σ) (w : Windows) (now : Int) (j : Job) :
    Stage → σ → Option (News × σ)
  | .starting, s =>
    let (result, s) := access.refresh j.key j.token s
    some (.refreshed result, s)
  | .checking, s =>
    let (result, s) := access.has j.key s
    some (.found result, s)
  | .saving outputs, s =>
    let (result, s) := access.insert (j.entry w now outputs) s
    some (.saved result, s)
  | .releasing _, s => some (.released, (access.unlock j.key j.token s).2)
  | .translating _, _ => none
  | .ended _, _ => none

def restamp (access : Access σ) (j : Job) (s : σ) : News × σ :=
  let (result, s) := access.refresh j.key j.token s
  (.restamped result, s)

end Translation
end Parley
