/-!
# The worker

A worker takes jobs off the queue, holds each until one of its slots is free
and lets it run there. When no more can come it waits until it can have as many
slots to itself as a 32-bit number counts them, and stops.
-/

namespace Parley
namespace Translation

inductive Phase where
  | serving
  | finishing
  | stopped
  deriving DecidableEq, Repr

structure Worker (α : Type) where
  slots : Nat
  inHand : Option α
  running : List α
  phase : Phase
  deriving Repr

namespace Worker

/-- The most slots that a worker can have. -/
def most : Nat :=
  2305843009213693951

/-- A worker that is switched off stops before it has taken anything. -/
def ofConfig (enabled : Bool) (slots : Nat) : Worker α :=
  ⟨max slots 1, none, [], if enabled then .serving else .stopped⟩

/-- The worker breaks down at once if it is to have more slots than it can. -/
def ofConfig? (enabled : Bool) (slots : Nat) : Option (Worker α) :=
  if enabled && most < slots then none else some (ofConfig enabled slots)

def take? (w : Worker α) (queue : List α) : Option (Worker α × List α) :=
  match w.phase, w.inHand, queue with
  | .serving, none, job :: rest => some ({ w with inHand := some job }, rest)
  | _, _, _ => none

def start? (w : Worker α) : Option (α × Worker α) :=
  match w.inHand with
  | none => none
  | some job =>
    if w.running.length < w.slots then
      some (job, { w with inHand := none, running := w.running ++ [job] })
    else none

def finish (w : Worker α) (isOver : α → Bool) : Worker α :=
  { w with running := w.running.filter fun job => !isOver job }

def close? (w : Worker α) (queue : List α) (senders : Nat) : Option (Worker α) :=
  match w.phase, w.inHand, queue, senders with
  | .serving, none, [], 0 => some { w with phase := .finishing }
  | _, _, _, _ => none

/-- The slots that the worker waits for in the end. -/
def awaited (w : Worker α) : Nat :=
  w.slots % 4294967296

def stop? (w : Worker α) : Option (Worker α) :=
  if w.phase = .finishing ∧ w.running.length + w.awaited ≤ w.slots then
    some { w with phase := .stopped }
  else none

end Worker
end Translation
end Parley
