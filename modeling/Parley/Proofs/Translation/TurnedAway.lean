import Parley.Proofs.Translation.Footprint
import Parley.Proofs.Translation.Progress

/-!
# Requests that are turned away

A request takes a lock before it knows whether the queue has room. If its job does not
get in, for whatever reason, the request gives back what it took and nothing else, even
if its lock was swept away and taken anew in the meantime. The store may be in any
state, and others may do to it and to the queue what they like between two steps.
-/

namespace Parley
namespace Translation

def Desk.withLocks (d : Desk) (ls : Locks) : Desk :=
  { d with store := { d.store with locks := ls } }

/-- What is answered when the lookup gave this. -/
def Status.ofFound : Option Entry → Status
  | some e => .ready e.content e.markup
  | none => .pending

namespace Footprint

def created (f : Footprint Desk) : List Hold :=
  f.before.store.locks.added f.after.store.locks

theorem created_of_store_eq {f : Footprint Desk} (h : f.after.store = f.before.store) :
    f.created = [] := by
  rw [created, h]
  exact Locks.added_eq_nil (List.Subset.refl _)

end Footprint

/-!
# A request among others
-/

/-- A request on its way, the desk it shares with others, and what each of its own steps found and
left there. -/
structure Course where
  stage : Asking
  desk : Desk
  steps : List (Footprint Desk)

namespace Course

inductive Turn where
  /-- The request takes its next step. -/
  | step (now : Int)
  /-- Somebody else calls on the store. -/
  | call (c : StoreCall)
  /-- Others have put jobs in the queue, taken jobs from it or closed it. -/
  | requeue (q : Queue)

def turn (r : Request) (c : Course) : Turn → Course
  | .step now =>
    let (stage, desk) := Asking.step now r c.stage c.desk
    ⟨stage, desk, c.steps ++ [⟨c.desk, desk⟩]⟩
  | .call sc => { c with desk := { c.desk with store := (c.desk.store.call sc).2 } }
  | .requeue q => { c with desk := { c.desk with queue := q } }

def run (r : Request) (d : Desk) (ts : List Turn) : Course :=
  ts.foldl (turn r) ⟨.looking, d, []⟩

def created (c : Course) : List Hold :=
  c.steps.flatMap Footprint.created

def lookup? (r : Request) (steps : List (Footprint Desk)) :
    Option (Except StoreError (Option Entry)) :=
  steps.head?.map fun f => f.before.store.get r.key

end Course

/-!
# Steps that make only these locks
-/

structure Footprint.Made (steps : List (Footprint Desk)) (own : List Hold) : Prop where
  created : steps.flatMap Footprint.created = own
  cache : ∀ f ∈ steps, Store.AgreeOn .cache f.before.store f.after.store
  besides : ∀ f ∈ steps, f.after.store.locks.besides own = f.before.store.locks.besides own

namespace Footprint

variable {steps : List (Footprint Desk)} {f : Footprint Desk} {own : List Hold}

theorem made_nil : Made [] [] where
  created := rfl
  cache _ hf := by cases hf
  besides _ hf := by cases hf

theorem Made.concat (h : Made steps own)
    (hcache : Store.AgreeOn .cache f.before.store f.after.store)
    (hbesides : f.after.store.locks.besides (own ++ f.created) =
      f.before.store.locks.besides (own ++ f.created)) :
    Made (steps ++ [f]) (own ++ f.created) where
  created := by rw [List.flatMap_append, h.created, List.flatMap_singleton]
  cache g hg := by
    rcases List.mem_append.mp hg with hold | hnew
    · exact h.cache g hold
    · rw [List.mem_singleton.mp hnew]
      exact hcache
  besides g hg := by
    rcases List.mem_append.mp hg with hold | hnew
    · exact Locks.besides_mono (h.besides g hold) (List.subset_append_left own f.created)
    · rw [List.mem_singleton.mp hnew]
      exact hbesides

theorem Made.concat_idle (h : Made steps own) (hstore : f.after.store = f.before.store) :
    Made (steps ++ [f]) own := by
  have hcreated := created_of_store_eq hstore
  have hmade := h.concat (f := f) (by rw [hstore]; exact Store.agreeOn_refl _ _) (by rw [hstore])
  rw [hcreated, List.append_nil] at hmade
  exact hmade

end Footprint

/-!
# Where a request stands
-/

namespace Asking

variable {r : Request} {d : Desk}

theorem lock_of_hasLocks (h : d.store.hasLocks = true) (now : Int) :
    lock now r d =
      (if d.store.locks.isHeld r.key then .answered (.ok .pending)
        else .queueing ⟨d.store.locks.made⟩,
        d.withLocks (d.store.locks.take r.key now).2) := by
  rw [lock, Store.tryLock, if_pos h]
  cases hheld : d.store.locks.isHeld r.key with
  | true => simp [Locks.take, hheld, Desk.withLocks]
  | false => simp [Locks.take, hheld, Desk.withLocks]

theorem giveBack_of_hasLocks (h : d.store.hasLocks = true) (token : Token) :
    giveBack r token d =
      (.answered (.ok .pending), d.withLocks (d.store.locks.release r.key token)) := by
  rw [giveBack, Store.unlock, if_pos h]
  rfl

end Asking

namespace Course

variable {r : Request} {d : Desk} {steps : List (Footprint Desk)} {stage : Asking}

theorem lookup?_concat {found : Except StoreError (Option Entry)} (f : Footprint Desk)
    (h : lookup? r steps = some found) : lookup? r (steps ++ [f]) = some found := by
  cases steps with
  | nil => cases h
  | cons g rest => exact h

structure Has (r : Request) (steps : List (Footprint Desk))
    (found : Except StoreError (Option Entry)) (own : List Hold) : Prop where
  lookup : lookup? r steps = some found
  made : Footprint.Made steps own

inductive Stands (r : Request) (d : Desk) (steps : List (Footprint Desk)) : Asking → Prop where
  | looking (hnone : steps = []) : Stands r d steps .looking
  | locking (h : Has r steps (.ok none) []) : Stands r d steps .locking
  | queueing {token : Token} (h : Has r steps (.ok none) [(r.key, token)])
      (hmade : token.number < d.store.locks.made) : Stands r d steps (.queueing token)
  | returning {token : Token} (h : Has r steps (.ok none) [(r.key, token)])
      (hmade : token.number < d.store.locks.made) : Stands r d steps (.returning token)
  | answered {found : Except StoreError (Option Entry)} {own : List Hold}
      (h : Has r steps found own)
      (hown : (∃ f ∈ steps, f.after.queue ≠ f.before.queue) ∨
        ∀ hold ∈ own, d.store.locks.IsGone hold) :
      Stands r d steps (.answered (found.map Status.ofFound))

variable {found : Except StoreError (Option Entry)} {own : List Hold}

theorem Has.concat_idle {f : Footprint Desk} (h : Has r steps found own)
    (hstore : f.after.store = f.before.store) : Has r (steps ++ [f]) found own :=
  ⟨lookup?_concat f h.lookup, h.made.concat_idle hstore⟩

theorem Has.concat_locks {new : List Hold} {ls : Locks} (h : Has r steps found own)
    (hadded : d.store.locks.added ls = new)
    (hbesides : ls.besides (own ++ new) = d.store.locks.besides (own ++ new)) :
    Has r (steps ++ [⟨d, d.withLocks ls⟩]) found (own ++ new) := by
  subst hadded
  exact ⟨lookup?_concat _ h.lookup, h.made.concat ⟨rfl, rfl⟩ hbesides⟩

theorem Stands.others (h : Stands r d steps stage) {d' : Desk}
    (hmade : d.store.locks.made ≤ d'.store.locks.made)
    (hgone : ∀ hold, d.store.locks.IsGone hold → d'.store.locks.IsGone hold) :
    Stands r d' steps stage := by
  cases h with
  | looking hnone => exact .looking hnone
  | locking h => exact .locking h
  | queueing h hlt => exact .queueing h (Nat.lt_of_lt_of_le hlt hmade)
  | returning h hlt => exact .returning h (Nat.lt_of_lt_of_le hlt hmade)
  | answered h hown =>
      refine .answered h ?_
      rcases hown with hqueued | hall
      · exact Or.inl hqueued
      · exact Or.inr fun hold hmem => hgone hold (hall hold hmem)

theorem stands_look (r : Request) (d : Desk) :
    Stands r (Asking.look r d).2 [⟨d, (Asking.look r d).2⟩] (Asking.look r d).1 := by
  have hhas : Has r [⟨d, (Asking.look r d).2⟩] (d.store.get r.key) [] :=
    ⟨rfl, Footprint.made_nil.concat_idle (Asking.look_store r d)⟩
  cases hget : d.store.get r.key with
  | error e =>
      have hstage : (Asking.look r d).1 = .answered (.error e) := by rw [Asking.look, hget]
      rw [hget] at hhas
      rw [hstage]
      exact .answered hhas (Or.inr (List.forall_mem_nil _))
  | ok entry? =>
      rw [hget] at hhas
      cases entry? with
      | none =>
          have hstage : (Asking.look r d).1 = .locking := by rw [Asking.look, hget]
          rw [hstage]
          exact .locking hhas
      | some e =>
          have hstage : (Asking.look r d).1 = .answered (.ok (.ready e.content e.markup)) := by
            rw [Asking.look, hget]
          rw [hstage]
          exact .answered hhas (Or.inr (List.forall_mem_nil _))

theorem Has.stands_lock (h : Has r steps (.ok none) []) (hlocks : d.store.hasLocks = true)
    (now : Int) :
    Stands r (Asking.lock now r d).2 (steps ++ [⟨d, (Asking.lock now r d).2⟩])
      (Asking.lock now r d).1 := by
  rw [Asking.lock_of_hasLocks hlocks]
  cases hheld : d.store.locks.isHeld r.key with
  | true =>
      have hsame : (d.store.locks.take r.key now).2.held = d.store.locks.held := by
        rw [Locks.take, hheld]
        rfl
      have hadded : d.store.locks.added (d.store.locks.take r.key now).2 = [] := by
        apply Locks.added_eq_nil
        rw [Locks.holds_take_of_held hheld]
        exact List.Subset.refl _
      have hnext := h.concat_locks hadded (by rw [Locks.besides, hsame, Locks.besides])
      exact .answered hnext (Or.inr (List.forall_mem_nil _))
  | false =>
      have hnext := h.concat_locks (Locks.added_take hheld now)
        (Locks.besides_take (List.mem_singleton_self _) now)
      refine .queueing hnext ?_
      show d.store.locks.made < (d.store.locks.take r.key now).2.made
      rw [Locks.take, hheld]
      exact Nat.lt_succ_self d.store.locks.made

theorem Has.stands_queue {token : Token} (h : Has r steps (.ok none) [(r.key, token)])
    (hmade : token.number < d.store.locks.made) :
    Stands r (Asking.queue r token d).2 (steps ++ [⟨d, (Asking.queue r token d).2⟩])
      (Asking.queue r token d).1 := by
  have hnext : Has r (steps ++ [⟨d, (Asking.queue r token d).2⟩]) (.ok none) [(r.key, token)] :=
    h.concat_idle (Asking.queue_store r token d)
  rw [Asking.queue] at hnext ⊢
  cases hoffer : d.queue.offer? ⟨token, r⟩ with
  | some q =>
      rw [hoffer] at hnext
      have hchanged : q ≠ d.queue := by
        rw [Queue.offer?_eq_some hoffer]
        intro hsame
        have hjobs := congrArg Queue.jobs hsame
        simp at hjobs
      exact .answered hnext (Or.inl ⟨_, List.mem_concat_self, hchanged⟩)
  | none =>
      rw [hoffer] at hnext
      exact .returning hnext hmade

theorem Has.stands_giveBack {token : Token} (h : Has r steps (.ok none) [(r.key, token)])
    (hmade : token.number < d.store.locks.made) (hlocks : d.store.hasLocks = true) :
    Stands r (Asking.giveBack r token d).2 (steps ++ [⟨d, (Asking.giveBack r token d).2⟩])
      (Asking.giveBack r token d).1 := by
  rw [Asking.giveBack_of_hasLocks hlocks]
  have hadded : d.store.locks.added (d.store.locks.release r.key token) = [] := by
    apply Locks.added_eq_nil
    rw [Locks.holds_release]
    exact List.filter_subset_self _
  have hnext := h.concat_locks hadded (Locks.besides_release (List.mem_singleton_self _))
  refine .answered hnext (Or.inr ?_)
  intro hold hmem
  rw [List.mem_singleton.mp hmem]
  exact Locks.isGone_release hmade

theorem Stands.step (h : Stands r d steps stage) (hlocks : d.store.hasLocks = true) (now : Int) :
    Stands r (Asking.step now r stage d).2 (steps ++ [⟨d, (Asking.step now r stage d).2⟩])
      (Asking.step now r stage d).1 := by
  cases h with
  | looking hnone =>
      rw [hnone]
      exact stands_look r d
  | locking h => exact h.stands_lock hlocks now
  | queueing h hmade => exact h.stands_queue hmade
  | returning h hmade => exact h.stands_giveBack hmade hlocks
  | answered h hown =>
      refine .answered (h.concat_idle rfl) ?_
      rcases hown with ⟨f, hf, hqueued⟩ | hall
      · exact Or.inl ⟨f, List.mem_append_left _ hf, hqueued⟩
      · exact Or.inr hall

/-!
# Runs
-/

theorem hasLocks_step (hlocks : d.store.hasLocks = true) (now : Int) (stage : Asking) :
    (Asking.step now r stage d).2.store.hasLocks = true := by
  cases stage with
  | looking => rw [Asking.step, Asking.look_store, hlocks]
  | locking =>
      rw [Asking.step, Asking.lock_of_hasLocks hlocks]
      exact hlocks
  | queueing token => rw [Asking.step, Asking.queue_store, hlocks]
  | returning token =>
      rw [Asking.step, Asking.giveBack_of_hasLocks hlocks]
      exact hlocks
  | answered answer => exact hlocks

/-- What is kept by every turn: the locks table is there, each step was counted, and the request
stands where its stage says. -/
structure IsOnCourse (r : Request) (c : Course) : Prop where
  hasLocks : c.desk.store.hasLocks = true
  few : c.stage.stepsLeft ≤ 4 - c.steps.length
  stands : Stands r c.desk c.steps c.stage

theorem IsOnCourse.turn {c : Course} (h : c.IsOnCourse r) (t : Turn) :
    (c.turn r t).IsOnCourse r := by
  cases t with
  | step now =>
      refine ⟨hasLocks_step h.hasLocks now c.stage, ?_, h.stands.step h.hasLocks now⟩
      have hleft := Asking.stepsLeft_step now r c.stage c.desk
      show (Asking.step now r c.stage c.desk).1.stepsLeft ≤ 4 - (c.steps ++ [_]).length
      rw [List.length_append, List.length_singleton, Nat.sub_add_eq]
      exact Nat.le_trans hleft (Nat.sub_le_sub_right h.few 1)
  | call sc =>
      refine ⟨(c.desk.store.hasLocks_call sc).trans h.hasLocks, h.few, ?_⟩
      exact h.stands.others (c.desk.store.made_le_call sc) fun _ hgone =>
        Store.isGone_call hgone sc
  | requeue q =>
      exact ⟨h.hasLocks, h.few, h.stands.others (Nat.le_refl _) fun _ hgone => hgone⟩

theorem isOnCourse_run (r : Request) (hlocks : d.store.hasLocks = true) (ts : List Turn) :
    (run r d ts).IsOnCourse r := by
  have hall : ∀ c : Course, c.IsOnCourse r → (ts.foldl (turn r) c).IsOnCourse r := by
    induction ts with
    | nil => exact fun _ h => h
    | cons t ts ih => exact fun c h => ih (c.turn r t) (h.turn t)
  exact hall ⟨.looking, d, []⟩ ⟨hlocks, Nat.le_refl 4, .looking rfl⟩

/-- A request has its answer after four steps, whatever others do in between. If none of its steps
changed the queue, it is told what it found and has touched nothing: its steps left the cache and
all locks that it did not make as they were, and the locks that it made are gone. -/
theorem turned_away (r : Request) (d : Desk) (hlocks : d.store.hasLocks = true)
    (ts : List Turn) :
    let c := run r d ts
    (4 ≤ c.steps.length → ∃ answer, c.stage = .answered answer) ∧
      ∀ answer, c.stage = .answered answer →
        (∀ f ∈ c.steps, f.after.queue = f.before.queue) →
          (∃ found, lookup? r c.steps = some found ∧ answer = found.map Status.ofFound) ∧
          (∀ f ∈ c.steps, Store.AgreeOn .cache f.before.store f.after.store) ∧
          (∀ f ∈ c.steps,
            f.after.store.locks.besides c.created = f.before.store.locks.besides c.created) ∧
          ∀ hold ∈ c.created, hold ∉ c.desk.store.locks.holds := by
  intro c
  have hcourse : c.IsOnCourse r := isOnCourse_run r hlocks ts
  constructor
  · intro hfour
    have hnone : c.stage.stepsLeft ≤ 0 := by
      rw [← Nat.sub_eq_zero_of_le hfour]
      exact hcourse.few
    exact Asking.exists_answer_of_steps hnone 0 r c.desk
  · intro answer hanswer hqueue
    have hstands := hcourse.stands
    rw [hanswer] at hstands
    generalize hstage : Asking.answered answer = stage at hstands
    cases hstands with
    | looking | locking | queueing | returning => cases hstage
    | @answered found own h hown =>
        have hcreated : c.created = own := h.made.created
        rw [hcreated]
        refine ⟨⟨found, h.lookup, Asking.answered.inj hstage⟩, h.made.cache, h.made.besides, ?_⟩
        rcases hown with ⟨f, hf, hchanged⟩ | hgone
        · exact absurd (hqueue f hf) hchanged
        · exact fun hold hmem => (hgone hold hmem).absent

/-- The queue is full, and a sweep has given the lock to somebody else before the request wants to
give it back. -/
theorem turned_away_of_successor :
    let r : Request := ⟨"Hi", "de", .plain, .summary⟩
    let waiting : Job := ⟨⟨7⟩, ⟨"Ho", "de", .plain, .summary⟩⟩
    let d : Desk := ⟨.empty, ⟨[waiting], 1, true⟩, {}⟩
    let ts : List Turn := [.step 5, .step 5, .call (.lock (.sweep 6)),
      .call (.lock (.tryLock r.key 6)), .step 6, .step 6]
    let c := run r d ts
    c.stage = .answered (.ok .pending) ∧ c.created = [(r.key, ⟨0⟩)] ∧
      c.desk.store.locks.held = [⟨r.key, ⟨1⟩, 6⟩] ∧
      ∀ hold ∈ c.created, hold ∉ c.desk.store.locks.holds := by
  intro r waiting d ts c
  have hstage : c.stage = .answered (.ok .pending) := rfl
  have hqueue : ∀ f ∈ c.steps, f.after.queue = f.before.queue := by decide +kernel
  have hcreated : c.created = [(r.key, ⟨0⟩)] := by decide +kernel
  have hheld : c.desk.store.locks.held = [⟨r.key, ⟨1⟩, 6⟩] := by decide +kernel
  have hlocks : d.store.hasLocks = true := rfl
  have haway := (turned_away r d hlocks ts).right (.ok .pending) hstage hqueue
  exact ⟨hstage, hcreated, hheld, haway.right.right.right⟩

end Course
end Translation
end Parley
