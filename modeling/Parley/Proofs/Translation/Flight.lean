import Mathlib.Data.List.Perm.Basic
import Parley.Proofs.Translation.Lock
import Parley.Proofs.Translation.Office

/-!
# Locks and jobs in flight

What each move of the office does to the locks and to the jobs in flight. A job
takes off with the lock that was taken for it, and it lands when that lock is
given back or was lost. A sweep touches the locks alone, and a worker that stops
drops the jobs in the queue. All that is said of locks and jobs in runs of the
office goes back to this list of cases.
-/

namespace Parley
namespace Translation

/-!
# Stores that work
-/

structure Store.IsWhole (s : Store) : Prop where
  hasCache : s.hasCache = true
  hasLocks : s.hasLocks = true

namespace Store

variable {s : Store}

theorem tryLock_of_isWhole (h : s.IsWhole) (key : ContentKey) (now : Int) :
    s.tryLock key now =
      (.ok (s.locks.take key now).1, { s with locks := (s.locks.take key now).2 }) := by
  simp [tryLock, h.hasLocks]

theorem refresh_of_isWhole (h : s.IsWhole) (key : ContentKey) (token : Token) (now : Int) :
    s.refresh key token now =
      (.ok (s.locks.owns key token),
        { s with locks := (s.locks.refresh key token now).2 }) := by
  simp [refresh, h.hasLocks, Locks.refresh]

theorem unlock_of_isWhole (h : s.IsWhole) (key : ContentKey) (token : Token) :
    s.unlock key token = (.ok (), { s with locks := s.locks.release key token }) := by
  simp [unlock, h.hasLocks]

theorem sweep_of_isWhole (h : s.IsWhole) (cutoff : Int) :
    s.sweep cutoff =
      (.ok (s.locks.sweep cutoff).1, { s with locks := (s.locks.sweep cutoff).2 }) := by
  simp [sweep, h.hasLocks]

theorem insert_of_isWhole (h : s.IsWhole) (e : Entry) :
    s.insert e = (.ok (s.cache.insert e).1, { s with cache := (s.cache.insert e).2 }) := by
  simp [insert, h.hasCache]

theorem get_of_isWhole (h : s.IsWhole) (key : ContentKey) :
    s.get key =
      match s.cache.get key with
      | .ok entry => .ok entry
      | .error e => .error (.corrupt e.message) := by
  cases hget : s.cache.get key with
  | error e => simp [get, h.hasCache, hget]
  | ok entry => simp [get, h.hasCache, hget]

end Store

/-!
# Steps of a request
-/

theorem Queue.offer?_eq_some {q q' : Queue} {j : Job} (h : q.offer? j = some q') :
    q' = { q with jobs := q.jobs ++ [j] } := by
  rw [offer?] at h
  split at h
  · exact (Option.some.inj h).symm
  · cases h

namespace Asking

variable {r : Request} {d : Desk}

theorem look_store (r : Request) (d : Desk) : (look r d).2.store = d.store := by
  rw [look]
  split <;> rfl

theorem look_queue (r : Request) (d : Desk) : (look r d).2.queue = d.queue := by
  rw [look]
  split <;> rfl

theorem lock_store (now : Int) (r : Request) (d : Desk) :
    (lock now r d).2.store = (d.store.tryLock r.key now).2 := by
  dsimp only [lock]
  split <;> rfl

theorem lock_queue (now : Int) (r : Request) (d : Desk) : (lock now r d).2.queue = d.queue := by
  dsimp only [lock]
  split <;> rfl

theorem queue_store (r : Request) (token : Token) (d : Desk) :
    (queue r token d).2.store = d.store := by
  rw [queue]
  split <;> rfl

theorem queue_step (now : Int) (r : Request) (stage : Asking) (d : Desk) :
    (step now r stage d).2.queue = d.queue ∨
      d.queue.isOpen = true ∧ ∃ token,
        (step now r stage d).2.queue = { d.queue with jobs := d.queue.jobs ++ [⟨token, r⟩] } := by
  cases stage with
  | looking => exact Or.inl (look_queue r d)
  | locking => exact Or.inl (lock_queue now r d)
  | queueing token =>
      dsimp only [step, queue]
      cases hoffer : d.queue.offer? ⟨token, r⟩ with
      | none => exact Or.inl rfl
      | some q =>
          right
          refine ⟨?_, token, Queue.offer?_eq_some hoffer⟩
          rw [Queue.offer?] at hoffer
          split at hoffer
          · rename_i hcan
            exact (Bool.and_eq_true_iff.mp hcan).left
          · cases hoffer
  | returning token => exact Or.inl rfl
  | answered answer => exact Or.inl rfl

theorem look_token (r : Request) (d : Desk) : (look r d).1.token? = none := by
  rw [look]
  split <;> rfl

theorem lock_of_held (h : d.store.IsWhole) (hheld : d.store.locks.isHeld r.key = true)
    (now : Int) :
    lock now r d =
      (.answered (.ok .pending),
        { d with
          store := { d.store with locks := (d.store.locks.take r.key now).2 } }) := by
  rw [lock, Store.tryLock_of_isWhole h, Locks.take_fst, if_pos hheld]

theorem lock_of_free (h : d.store.IsWhole) (hfree : d.store.locks.isHeld r.key = false)
    (now : Int) :
    lock now r d =
      (.queueing ⟨d.store.locks.made⟩,
        { d with
          store := { d.store with locks := (d.store.locks.take r.key now).2 } }) := by
  rw [lock, Store.tryLock_of_isWhole h, Locks.take_fst, hfree]
  rfl

theorem giveBack_of_isWhole (h : d.store.IsWhole) (token : Token) :
    giveBack r token d =
      (.answered (.ok .pending),
        { d with
          store := { d.store with locks := d.store.locks.release r.key token } }) := by
  rw [giveBack, Store.unlock_of_isWhole h]
  rfl

end Asking

/-!
# Steps of a job
-/

namespace Stage

theorem isOver_ofVerdict (replies : List (Option Reply)) : (ofVerdict replies).isOver = false := by
  rw [ofVerdict]
  split <;> rfl

theorem isOver_next_found (chunks : Nat) (result : Except StoreError Bool) :
    (checking.next chunks (.found result)).isOver = false := by
  rcases result with e | _ | _
  · rfl
  · exact isOver_ofVerdict _
  · rfl

theorem isOver_next_saved (chunks : Nat) (outputs : List String)
    (result : Except StoreError Bool) :
    ((saving outputs).next chunks (.saved result)).isOver = false := by
  rcases result with e | _ | _ <;> rfl

theorem next_restamped_true (stage : Stage) (chunks : Nat) :
    stage.next chunks (.restamped (.ok true)) = stage := by
  cases stage <;> rfl

theorem next_restamped_false {stage : Stage} (h : stage.isRunning = true) (chunks : Nat) :
    stage.next chunks (.restamped (.ok false)) = .ended .abandoned := by
  cases stage with
  | checking | translating | saving => rfl
  | starting | releasing | ended => cases h

theorem isOver_of_isRunning {stage : Stage} (h : stage.isRunning = true) :
    stage.isOver = false := by
  cases stage with
  | checking | translating | saving => rfl
  | starting | releasing | ended => cases h

end Stage

theorem Task.flight?_of_isOver {t : Task} (h : t.stage.isOver = true) : t.flight? = none :=
  if_pos h

theorem Task.flight?_of_not_isOver {t : Task} (h : t.stage.isOver = false) :
    t.flight? = some t.job := by
  rw [Task.flight?, h]
  rfl

/-!
# Counting flights
-/

theorem count_filterMap_set {α β : Type} [BEq β] {l : List α} {i : Nat} {a b : α}
    (h : l[i]? = some a) (f : α → Option β) (x : β) :
    ((l.set i b).filterMap f).count x + (f a).toList.count x =
      (l.filterMap f).count x + (f b).toList.count x := by
  induction l generalizing i with
  | nil => cases h
  | cons c l ih =>
      have hcount : ∀ (d : α) (l : List α),
          ((d :: l).filterMap f).count x = (f d).toList.count x + (l.filterMap f).count x := by
        intro d l
        rw [List.filterMap_cons]
        cases f d with
        | none => simp
        | some y => simp [List.count_cons, Nat.add_comm]
      cases i with
      | zero =>
          cases h
          rw [List.set_cons_zero, hcount, hcount]
          omega
      | succ i =>
          have hrest := ih h
          rw [List.set_cons_succ, hcount, hcount]
          omega

namespace Office

variable {o : Office}

theorem count_flights (o : Office) (j : Job) :
    o.flights.count j =
      (o.errands.filterMap Errand.flight?).count j + o.desk.queue.jobs.count j +
        o.worker.inHand.toList.count j + (o.tasks.filterMap Task.flight?).count j := by
  simp only [flights, List.count_append]

/-!
# Cases
-/

/-- What a move may do to the locks and to the jobs in flight, sweeping and stopping apart, after
these requests came. -/
inductive Shift (rs : List Request) (ls : Locks) (fs : List Job) : Locks → List Job → Prop where
  | idle {fs' : List Job} (hfs : fs'.Perm fs) : Shift rs ls fs ls fs'
  | refused {fs' : List Job} (key : ContentKey) (now : Int) (hheld : ls.isHeld key = true)
      (hfs : fs'.Perm fs) : Shift rs ls fs (ls.take key now).2 fs'
  | taken {fs' : List Job} (r : Request) (now : Int) (hr : r ∈ rs)
      (hfree : ls.isHeld r.key = false) (hfs : fs'.Perm (⟨⟨ls.made⟩, r⟩ :: fs)) :
      Shift rs ls fs (ls.take r.key now).2 fs'
  | stamped {fs' : List Job} (j : Job) (now : Int) (howns : ls.owns j.key j.token = true)
      (hfs : fs'.Perm fs) : Shift rs ls fs (ls.refresh j.key j.token now).2 fs'
  | lost {fs' : List Job} (j : Job) (now : Int) (howns : ls.owns j.key j.token = false)
      (hfs : fs.Perm (j :: fs')) : Shift rs ls fs (ls.refresh j.key j.token now).2 fs'
  | released {fs' : List Job} (j : Job) (hfs : fs.Perm (j :: fs')) :
      Shift rs ls fs (ls.release j.key j.token) fs'

theorem flights_set_errand {i : Nat} {e : Errand} (h : o.errands[i]? = some e) (e' : Errand)
    (desk : Desk) (queued : List Job)
    (hjobs : desk.queue.jobs = o.desk.queue.jobs ++ queued) :
    (e.flight?.toList ++
        ({ o with desk := desk, errands := o.errands.set i e' } : Office).flights).Perm
      (e'.flight?.toList ++ queued ++ o.flights) := by
  apply List.perm_iff_count.mpr
  intro j
  have hset := count_filterMap_set h (b := e') Errand.flight? j
  rw [List.count_append, List.count_append, List.count_append, count_flights, count_flights]
  dsimp only
  rw [hjobs, List.count_append]
  omega

theorem shift_proceed (h : o.store.IsWhole) (errand : Nat) (now : Int) :
    Shift o.requests o.store.locks o.flights (o.proceed errand now).store.locks
      (o.proceed errand now).flights := by
  rcases o.proceed_eq errand now with hsame | ⟨⟨r, stage⟩, he, heq⟩
  · rw [hsame]
    exact .idle (.refl _)
  · rw [heq]
    cases stage with
    | looking =>
        have hnone : (Errand.mk r (Asking.look r o.desk).1).flight? = none := by
          rw [Errand.flight?, Asking.look_token, Option.map_none]
        have hperm := flights_set_errand he ⟨r, (Asking.look r o.desk).1⟩
          (Asking.look r o.desk).2 [] (by rw [Asking.look_queue, List.append_nil])
        rw [hnone] at hperm
        change Shift o.requests o.store.locks o.flights (Asking.look r o.desk).2.store.locks _
        rw [Asking.look_store]
        exact .idle hperm
    | locking =>
        dsimp only [Asking.step]
        cases hheld : o.store.locks.isHeld r.key with
        | true =>
            rw [Asking.lock_of_held h hheld]
            exact .refused r.key now hheld
              (flights_set_errand he ⟨r, .answered (.ok .pending)⟩ _ [] (by simp))
        | false =>
            rw [Asking.lock_of_free h hheld]
            exact .taken r now (List.mem_map_of_mem (List.mem_of_getElem? he)) hheld
              (flights_set_errand he ⟨r, .queueing ⟨o.store.locks.made⟩⟩ _ [] (by simp))
    | queueing token =>
        dsimp only [Asking.step, Asking.queue]
        cases hoffer : o.desk.queue.offer? ⟨token, r⟩ with
        | none =>
            exact .idle ((List.perm_cons _).mp
              (flights_set_errand he ⟨r, .returning token⟩ o.desk [] (by simp)))
        | some q =>
            exact .idle ((List.perm_cons _).mp
              (flights_set_errand he ⟨r, .answered (.ok .pending)⟩ { o.desk with queue := q }
                [⟨token, r⟩] (by rw [Queue.offer?_eq_some hoffer])))
    | returning token =>
        dsimp only [Asking.step]
        rw [Asking.giveBack_of_isWhole h]
        exact .released ⟨token, r⟩
          (flights_set_errand he ⟨r, .answered (.ok .pending)⟩ _ [] (by simp)).symm
    | answered answer =>
        exact .idle
          (flights_set_errand he ⟨r, .answered answer⟩ o.desk [] (List.append_nil _).symm)

theorem flights_set_task {i : Nat} {t : Task} (h : o.tasks[i]? = some t) (t' : Task)
    (o' : Office) (herrands : o'.errands = o.errands)
    (hjobs : o'.desk.queue.jobs = o.desk.queue.jobs)
    (hhand : o'.worker.inHand = o.worker.inHand) (htasks : o'.tasks = o.tasks.set i t') :
    (t.flight?.toList ++ o'.flights).Perm (t'.flight?.toList ++ o.flights) := by
  apply List.perm_iff_count.mpr
  intro j
  have hset := count_filterMap_set h (b := t') Task.flight? j
  rw [List.count_append, List.count_append, count_flights, count_flights, herrands, hjobs, hhand,
    htasks]
  omega

theorem flights_tell_keep {w : Windows} {i : Nat} {t : Task} (h : o.tasks[i]? = some t)
    {news : News} (hbefore : t.stage.isOver = false)
    (hafter : (t.stage.next (t.job.document w).chunks.length news).isOver = false) :
    (o.tell w i t news).flights.Perm o.flights := by
  have hperm := flights_set_task h
    { t with stage := t.stage.next (t.job.document w).chunks.length news }
    (o.tell w i t news) rfl rfl (by rw [tell, hafter]; rfl) rfl
  rw [Task.flight?_of_not_isOver hbefore, Task.flight?_of_not_isOver hafter] at hperm
  exact (List.perm_cons _).mp hperm

theorem flights_tell_land {w : Windows} {i : Nat} {t : Task} (h : o.tasks[i]? = some t)
    {news : News} (hbefore : t.stage.isOver = false)
    (hafter : (t.stage.next (t.job.document w).chunks.length news).isOver = true) :
    o.flights.Perm (t.job :: (o.tell w i t news).flights) := by
  have hperm := flights_set_task h
    { t with stage := t.stage.next (t.job.document w).chunks.length news }
    (o.tell w i t news) rfl rfl (by rw [tell, hafter]; rfl) rfl
  rw [Task.flight?_of_not_isOver hbefore, Task.flight?_of_isOver hafter] at hperm
  exact hperm.symm

theorem shift_call (w : Windows) (h : o.store.IsWhole) (task : Nat) (now : Int) :
    Shift o.requests o.store.locks o.flights (o.call w task now).store.locks
      (o.call w task now).flights := by
  rcases o.call_eq w task now with hsame | ⟨⟨job, stage, out⟩, news, store, ht, hcall, heq⟩
  · rw [hsame]
    exact .idle (.refl _)
  · rw [heq]
    dsimp only [Stage.call, Store.access] at hcall
    cases stage with
    | starting =>
        dsimp only at hcall
        rw [Store.refresh_of_isWhole h] at hcall
        cases hcall
        cases howns : o.store.locks.owns job.key job.token with
        | true => exact .stamped job now howns (flights_tell_keep ht rfl rfl)
        | false => exact .lost job now howns (flights_tell_land ht rfl rfl)
    | checking =>
        cases hcall
        exact .idle (flights_tell_keep ht rfl (Stage.isOver_next_found _ _))
    | translating replies => cases hcall
    | saving outputs =>
        dsimp only at hcall
        rw [Store.insert_of_isWhole h] at hcall
        cases hcall
        exact .idle (flights_tell_keep ht rfl (Stage.isOver_next_saved _ _ _))
    | releasing outcome =>
        dsimp only at hcall
        rw [Store.unlock_of_isWhole h] at hcall
        cases hcall
        exact .released job (flights_tell_land ht rfl rfl)
    | ended outcome => cases hcall

theorem shift_restamp (w : Windows) (h : o.store.IsWhole) (task : Nat) (now : Int) :
    Shift o.requests o.store.locks o.flights (o.restamp w task now).store.locks
      (o.restamp w task now).flights := by
  rcases o.restamp_eq w task now with hsame | ⟨t, ht, hrunning, heq⟩
  · rw [hsame]
    exact .idle (.refl _)
  · have hbefore := Stage.isOver_of_isRunning hrunning
    rw [heq, Store.refresh_of_isWhole h]
    cases howns : o.store.locks.owns t.job.key t.job.token with
    | true =>
        exact .stamped t.job now howns
          (flights_tell_keep ht hbefore (by rw [Stage.next_restamped_true, hbefore]))
    | false =>
        exact .lost t.job now howns
          (flights_tell_land ht hbefore (by rw [Stage.next_restamped_false hrunning]; rfl))

theorem flights_come (o : Office) (r : Request) : (o.come r).flights = o.flights := by
  simp [flights, come, Errand.flight?, Asking.token?]

theorem flights_take (o : Office) : o.take.flights.Perm o.flights := by
  rcases o.take_eq with hsame | ⟨job, rest, hjobs, hhand, heq⟩
  · rw [hsame]
  · rw [heq]
    apply List.perm_iff_count.mpr
    intro j
    rw [count_flights, count_flights, hjobs, hhand]
    simp only [List.count_cons, Option.toList_some, Option.toList_none, List.count_nil]
    omega

theorem flights_start (o : Office) : o.start.flights.Perm o.flights := by
  rcases o.start_eq with hsame | ⟨job, hhand, heq⟩
  · rw [hsame]
  · rw [heq]
    apply List.perm_iff_count.mpr
    intro j
    have hone : [Task.mk job .starting []].filterMap Task.flight? = [job] := rfl
    rw [count_flights, count_flights, hhand]
    simp only [List.filterMap_append, List.count_append, hone, Option.toList_some,
      Option.toList_none, List.count_nil]
    omega

theorem flights_post (w : Windows) (o : Office) (task chunk : Nat) :
    (o.post w task chunk).flights.Perm o.flights := by
  rcases o.post_eq w task chunk with hsame | ⟨t, _, _, ht, _, _, heq⟩
  · rw [hsame]
  · rw [heq]
    exact (List.perm_append_left_iff _).mp
      (flights_set_task ht { t with out := chunk :: t.out } _ rfl rfl rfl rfl)

theorem flights_hear (w : Windows) (o : Office) (task chunk : Nat) (reply : Reply) :
    (o.hear w task chunk reply).flights.Perm o.flights := by
  rcases o.hear_eq w task chunk reply with hsame | ⟨t, replies, text, ht, hstage, _, _, _, heq⟩
  · rw [hsame]
  · rw [heq]
    have hover : (t.stage.next (t.job.document w).chunks.length
        (.translated chunk reply)).isOver = false := by
      rw [hstage]
      exact Stage.isOver_ofVerdict _
    exact flights_tell_keep
      (o := { o with answers := o.answers ++ [(t.job.letter chunk text, reply)] }) ht
      (by rw [hstage]; rfl) hover

theorem flights_shut (o : Office) : ∃ dropped, o.flights.Perm (dropped ++ o.shut.flights) := by
  rw [shut]
  split
  · refine ⟨o.desk.queue.jobs, List.perm_iff_count.mpr fun j => ?_⟩
    rw [List.count_append, count_flights, count_flights]
    simp only [Queue.close, List.count_nil]
    omega
  · exact ⟨[], .refl _⟩

theorem shift_move (w : Windows) (h : o.store.IsWhole) {m : Move} (hsweep : m.isSweep = false)
    (hshut : m ≠ .shut) :
    Shift o.requests o.store.locks o.flights (o.move w m).store.locks (o.move w m).flights := by
  cases m with
  | come r =>
      change Shift o.requests o.store.locks o.flights o.store.locks (o.come r).flights
      rw [flights_come]
      exact .idle (.refl _)
  | proceed errand now => exact shift_proceed h errand now
  | take =>
      rw [move, store_take]
      exact .idle (flights_take o)
  | start =>
      rw [move, store_start]
      exact .idle (flights_start o)
  | shut => exact absurd rfl hshut
  | call task now => exact shift_call w h task now
  | restamp task now => exact shift_restamp w h task now
  | post task chunk =>
      rw [move, store_post]
      exact .idle (flights_post w o task chunk)
  | hear task chunk reply =>
      rw [move, store_hear]
      exact .idle (flights_hear w o task chunk reply)
  | sweep cutoff => cases hsweep

/-!
# The store

A move changes the locks, or it writes the entry of a job that is about to save
it. In neither case does a table go missing.
-/

theorem store_step {d : Desk} (h : d.store.IsWhole) (now : Int) (r : Request) (stage : Asking) :
    ∃ locks, (Asking.step now r stage d).2.store = { d.store with locks := locks } := by
  cases stage with
  | looking => exact ⟨d.store.locks, Asking.look_store r d⟩
  | locking =>
      rw [Asking.step]
      cases hheld : d.store.locks.isHeld r.key with
      | true => exact ⟨_, by rw [Asking.lock_of_held h hheld]⟩
      | false => exact ⟨_, by rw [Asking.lock_of_free h hheld]⟩
  | queueing token =>
      refine ⟨d.store.locks, ?_⟩
      rw [Asking.step, Asking.queue]
      split <;> rfl
  | returning token => exact ⟨_, by rw [Asking.step, Asking.giveBack_of_isWhole h]⟩
  | answered answer => exact ⟨d.store.locks, rfl⟩

theorem store_call {w : Windows} {j : Job} {stage : Stage} {s s' : Store} {news : News}
    {now : Int} (h : s.IsWhole)
    (hcall : stage.call (Store.access now) w now j s = some (news, s')) :
    (∃ locks, s' = { s with locks := locks }) ∨
      ∃ outputs, stage = .saving outputs ∧
        s' = { s with cache := (s.cache.insert (j.entry w now outputs)).2 } := by
  dsimp only [Stage.call, Store.access] at hcall
  cases stage with
  | starting =>
      dsimp only at hcall
      rw [Store.refresh_of_isWhole h] at hcall
      cases hcall
      exact Or.inl ⟨_, rfl⟩
  | checking =>
      cases hcall
      exact Or.inl ⟨s.locks, rfl⟩
  | translating replies => cases hcall
  | saving outputs =>
      dsimp only at hcall
      rw [Store.insert_of_isWhole h] at hcall
      cases hcall
      exact Or.inr ⟨outputs, rfl, rfl⟩
  | releasing outcome =>
      dsimp only at hcall
      rw [Store.unlock_of_isWhole h] at hcall
      cases hcall
      exact Or.inl ⟨_, rfl⟩
  | ended outcome => cases hcall

theorem store_move (w : Windows) (h : o.store.IsWhole) (m : Move) :
    (∃ locks, (o.move w m).store = { o.store with locks := locks }) ∨
      ∃ task now t outputs, m = .call task now ∧ o.tasks[task]? = some t ∧
        t.stage = .saving outputs ∧
        (o.move w m).store =
          { o.store with cache := (o.store.cache.insert (t.job.entry w now outputs)).2 } := by
  cases m with
  | come r => exact Or.inl ⟨o.store.locks, rfl⟩
  | proceed errand now =>
      refine Or.inl ?_
      rw [move]
      rcases o.proceed_eq errand now with hsame | ⟨e, _, heq⟩
      · exact ⟨o.store.locks, by rw [hsame]⟩
      · rw [heq]
        exact store_step h now e.request e.stage
  | take => exact Or.inl ⟨o.store.locks, o.store_take⟩
  | start => exact Or.inl ⟨o.store.locks, o.store_start⟩
  | shut => exact Or.inl ⟨o.store.locks, o.store_shut⟩
  | call task now =>
      rw [move]
      rcases o.call_eq w task now with hsame | ⟨t, news, store, ht, hcall, heq⟩
      · exact Or.inl ⟨o.store.locks, by rw [hsame]⟩
      · rw [heq]
        rcases store_call h hcall with hlocks | ⟨outputs, hstage, hstore⟩
        · exact Or.inl hlocks
        · exact Or.inr ⟨task, now, t, outputs, rfl, ht, hstage, hstore⟩
  | restamp task now =>
      refine Or.inl ?_
      rw [move]
      rcases o.restamp_eq w task now with hsame | ⟨t, _, _, heq⟩
      · exact ⟨o.store.locks, by rw [hsame]⟩
      · rw [heq, Store.refresh_of_isWhole h]
        exact ⟨_, rfl⟩
  | post task chunk => exact Or.inl ⟨o.store.locks, o.store_post w task chunk⟩
  | hear task chunk reply => exact Or.inl ⟨o.store.locks, o.store_hear w task chunk reply⟩
  | sweep cutoff => exact Or.inl ⟨_, by rw [move, sweep, Store.sweep_of_isWhole h]; rfl⟩

theorem isWhole_move (w : Windows) (h : o.store.IsWhole) (m : Move) :
    (o.move w m).store.IsWhole := by
  rcases store_move w h m with ⟨locks, heq⟩ | ⟨_, _, _, _, _, _, _, heq⟩
  · rw [heq]
    exact ⟨h.hasCache, h.hasLocks⟩
  · rw [heq]
    exact ⟨h.hasCache, h.hasLocks⟩

end Office
end Translation
end Parley
