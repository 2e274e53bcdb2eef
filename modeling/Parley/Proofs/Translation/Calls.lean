import Parley.Proofs.Translation.Holder

/-!
# Calls on the locks

A move makes one call on the locks at most. A lock outlives the call unless it is
given back or swept away, and its stamp changes only when its owner restamps it.
Whoever gives a lock back, or asks for a lock that is lost, is in flight before the
move and not after it.
-/

namespace Parley
namespace Translation

/-!
# Locks that outlive a call
-/

namespace LockCall

def takes (c : LockCall) (l : Lock) : Bool :=
  match c with
  | .tryLock _ _ | .refresh _ _ _ => false
  | .unlock key token => l.isOwnedBy key token
  | .sweep cutoff => l.stamp < cutoff

def restamp? (c : LockCall) (hold : Hold) : Option Int :=
  match c with
  | .refresh key token now => if hold = (key, token) then some now else none
  | .tryLock _ _ | .unlock _ _ | .sweep _ => none

theorem restamp?_eq_some_iff {c : LockCall} {j : Job} {now : Int} :
    c.restamp? j.hold = some now ↔ c = .refresh j.key j.token now := by
  constructor
  · intro h
    cases c with
    | refresh key token now' =>
        rw [restamp?] at h
        split at h
        · rename_i hhold
          rw [Job.hold, Prod.mk.injEq] at hhold
          rw [hhold.left, hhold.right, Option.some.inj h]
        · cases h
    | tryLock | unlock | sweep => cases h
  · intro h
    rw [h, restamp?, Job.hold, if_pos rfl]

end LockCall

namespace Locks

variable {ls : Locks}

theorem Exclusive.after (h : ls.Exclusive) (c : LockCall) : (ls.after c).Exclusive := by
  cases c with
  | tryLock key now => exact h.take
  | refresh key token now => exact h.refresh
  | unlock key token => exact h.release
  | sweep cutoff => exact h.sweep cutoff

theorem mem_held_after_of_kept {c : LockCall} {l : Lock} (hl : l ∈ ls.held)
    (hkept : c.takes l = false) :
    { l with stamp := (c.restamp? l.hold).getD l.stamp } ∈ (ls.after c).held := by
  cases c with
  | tryLock key now =>
      rw [after, take]
      split
      · exact hl
      · exact List.mem_cons_of_mem _ hl
  | refresh key token now =>
      refine List.mem_map.mpr ⟨l, hl, ?_⟩
      rw [LockCall.restamp?]
      by_cases hhold : l.hold = (key, token)
      · have howned : l.isOwnedBy key token = true := by
          rw [Lock.hold, Prod.mk.injEq] at hhold
          simp [Lock.isOwnedBy, hhold]
        rw [howned, if_pos hhold]
        rfl
      · have howned : l.isOwnedBy key token = false := by
          rw [Lock.hold, Prod.mk.injEq] at hhold
          simpa [Lock.isOwnedBy] using hhold
        rw [howned, if_neg hhold]
        rfl
  | unlock key token =>
      rw [LockCall.takes] at hkept
      exact List.mem_filter.mpr ⟨hl, congrArg not hkept⟩
  | sweep cutoff =>
      rw [LockCall.takes] at hkept
      exact List.mem_filter.mpr ⟨hl, congrArg not hkept⟩

end Locks

/-!
# Moves and their calls
-/

def Errand.lockCall? (now : Int) (e : Errand) : Option LockCall :=
  match e.stage with
  | .locking => some (.tryLock e.request.key now)
  | .returning token => some (.unlock e.request.key token)
  | .looking | .queueing _ | .answered _ => none

def Task.lockCall? (now : Int) (t : Task) : Option LockCall :=
  match t.stage with
  | .starting => some (.refresh t.job.key t.job.token now)
  | .releasing _ => some (.unlock t.job.key t.job.token)
  | .checking | .translating _ | .saving _ | .ended _ => none

namespace Office

variable {w : Windows} {o : Office}

def lockCall? (o : Office) : Move → Option LockCall
  | .proceed errand now => o.errands[errand]?.bind (Errand.lockCall? now)
  | .call task now => o.tasks[task]?.bind (Task.lockCall? now)
  | .restamp task now =>
    (o.tasks[task]?.filter fun t => t.stage.isRunning).map fun t =>
      .refresh t.job.key t.job.token now
  | .sweep cutoff => some (.sweep cutoff)
  | .come _ | .take | .start | .shut | .post _ _ | .hear _ _ _ => none

def restampedAt? (o : Office) (m : Move) (hold : Hold) : Option Int :=
  (o.lockCall? m).bind fun c => c.restamp? hold

theorem restampedAt?_eq_some_iff {m : Move} {j : Job} {now : Int} :
    o.restampedAt? m j.hold = some now ↔
      o.lockCall? m = some (.refresh j.key j.token now) := by
  rw [restampedAt?, Option.bind_eq_some_iff]
  constructor
  · rintro ⟨c, hcall, hc⟩
    rw [hcall, LockCall.restamp?_eq_some_iff.mp hc]
  · intro hcall
    exact ⟨_, hcall, LockCall.restamp?_eq_some_iff.mpr rfl⟩

theorem locks_move (w : Windows) (h : o.store.IsWhole) (m : Move) :
    (o.move w m).store.locks = o.store.locks.afterAll (o.lockCall? m).toList := by
  cases m with
  | come r => rfl
  | proceed errand now =>
      rw [move, proceed, lockCall?]
      cases he : o.errands[errand]? with
      | none => rfl
      | some e =>
          rcases e with ⟨r, stage⟩
          cases stage with
          | looking => exact congrArg Store.locks (Asking.look_store r o.desk)
          | locking =>
              dsimp only [Asking.step]
              cases hheld : o.store.locks.isHeld r.key with
              | true => rw [Asking.lock_of_held h hheld]; rfl
              | false => rw [Asking.lock_of_free h hheld]; rfl
          | queueing token =>
              dsimp only [Asking.step, Asking.queue]
              cases o.desk.queue.offer? ⟨token, r⟩ <;> rfl
          | returning token =>
              dsimp only [Asking.step]
              rw [Asking.giveBack_of_isWhole h]
              rfl
          | answered answer => rfl
  | take => rw [move, store_take]; rfl
  | start => rw [move, store_start]; rfl
  | shut => rw [move, store_shut]; rfl
  | call task now =>
      rw [move, call, lockCall?]
      cases ht : o.tasks[task]? with
      | none => rfl
      | some t =>
          rcases t with ⟨job, stage, out⟩
          dsimp only [Stage.call, Store.access]
          cases stage with
          | starting =>
              dsimp only
              rw [Store.refresh_of_isWhole h]
              rfl
          | checking => rfl
          | translating replies => rfl
          | saving outputs =>
              dsimp only
              rw [Store.insert_of_isWhole h]
              rfl
          | releasing outcome =>
              dsimp only
              rw [Store.unlock_of_isWhole h]
              rfl
          | ended outcome => rfl
  | restamp task now =>
      rw [move, restamp, lockCall?]
      cases ht : o.tasks[task]? with
      | none => rfl
      | some t =>
          cases hrunning : t.stage.isRunning with
          | true =>
              dsimp only [Translation.restamp, Store.access]
              rw [if_pos hrunning, Store.refresh_of_isWhole h]
              simp [Option.filter, hrunning]
              rfl
          | false =>
              dsimp only
              simp [Option.filter, hrunning]
              rfl
  | post task chunk => rw [move, store_post]; rfl
  | hear task chunk reply => rw [move, store_hear]; rfl
  | sweep cutoff => rw [move, sweep, Store.sweep_of_isWhole h]; rfl

theorem exclusive_move (w : Windows) (h : o.store.IsWhole) (hexclusive : o.store.locks.Exclusive)
    (m : Move) : (o.move w m).store.locks.Exclusive := by
  rw [locks_move w h m]
  cases o.lockCall? m with
  | none => exact hexclusive
  | some c => exact hexclusive.after c

/-!
# Landing
-/

/-- The job with this lock is in flight in one office and no longer in the other. -/
def Lands (o o' : Office) (hold : Hold) : Prop :=
  ∃ j : Job, j.hold = hold ∧ o.flights.Perm (j :: o'.flights)

theorem lands_of_unlock (w : Windows) (h : o.store.IsWhole) {m : Move} {key : ContentKey}
    {token : Token} (hcall : o.lockCall? m = some (.unlock key token)) :
    Lands o (o.move w m) (key, token) := by
  cases m with
  | proceed errand now =>
      rcases Option.bind_eq_some_iff.mp hcall with ⟨⟨r, stage⟩, he, hstage⟩
      cases stage with
      | returning token' =>
          rcases LockCall.unlock.inj (Option.some.inj hstage) with ⟨rfl, rfl⟩
          refine ⟨⟨token', r⟩, rfl, ?_⟩
          rw [move, proceed, he]
          dsimp only [Asking.step]
          rw [Asking.giveBack_of_isWhole h]
          exact (flights_set_errand he ⟨r, .answered (.ok .pending)⟩ _ [] (by simp)).symm
      | looking | locking | queueing | answered => cases hstage
  | call task now =>
      rcases Option.bind_eq_some_iff.mp hcall with ⟨⟨job, stage, out⟩, ht, hstage⟩
      cases stage with
      | releasing outcome =>
          rcases LockCall.unlock.inj (Option.some.inj hstage) with ⟨rfl, rfl⟩
          refine ⟨job, rfl, ?_⟩
          rw [move, call, ht]
          exact flights_tell_land ht rfl rfl
      | starting | checking | translating | saving | ended => cases hstage
  | restamp task now =>
      rcases Option.map_eq_some_iff.mp hcall with ⟨t, _, hrefresh⟩
      cases hrefresh
  | come | take | start | shut | post | hear | sweep => cases hcall

theorem lands_of_lost (w : Windows) (h : o.store.IsWhole) {m : Move} {key : ContentKey}
    {token : Token} {now : Int} (hcall : o.lockCall? m = some (.refresh key token now))
    (hlost : o.store.locks.owns key token = false) : Lands o (o.move w m) (key, token) := by
  cases m with
  | proceed errand now =>
      rcases Option.bind_eq_some_iff.mp hcall with ⟨⟨r, stage⟩, _, hstage⟩
      cases stage <;> cases hstage
  | call task now =>
      rcases Option.bind_eq_some_iff.mp hcall with ⟨⟨job, stage, out⟩, ht, hstage⟩
      cases stage with
      | starting =>
          rcases LockCall.refresh.inj (Option.some.inj hstage) with ⟨rfl, rfl, rfl⟩
          refine ⟨job, rfl, ?_⟩
          rw [move, call, ht]
          dsimp only [Stage.call, Store.access]
          rw [Store.refresh_of_isWhole h, hlost]
          exact flights_tell_land ht rfl rfl
      | checking | translating | saving | releasing | ended => cases hstage
  | restamp task now =>
      rcases Option.map_eq_some_iff.mp hcall with ⟨t, hfilter, hrefresh⟩
      rcases Option.filter_eq_some_iff.mp hfilter with ⟨ht, hrunning⟩
      rcases LockCall.refresh.inj hrefresh with ⟨rfl, rfl, rfl⟩
      refine ⟨t.job, rfl, ?_⟩
      rw [move, restamp, ht]
      dsimp only [Translation.restamp, Store.access]
      rw [if_pos hrunning, Store.refresh_of_isWhole h, hlost]
      exact flights_tell_land ht (Stage.isOver_of_isRunning hrunning)
        (by rw [Stage.next_restamped_false hrunning]; rfl)
  | come | take | start | shut | post | hear | sweep => cases hcall

theorem HasTokens.hold_ne_of_lands (h : o.HasTokens) {o' : Office} {hold : Hold}
    (hlands : Lands o o' hold) {j : Job} (hj : j ∈ o'.flights) : j.hold ≠ hold := by
  rcases hlands with ⟨landed, rfl, hperm⟩
  intro hsame
  have hnodup := (hperm.map Job.token).nodup_iff.mp h.distinct
  rw [List.map_cons, List.nodup_cons] at hnodup
  apply hnodup.left
  rw [Job.hold, Job.hold, Prod.mk.injEq] at hsame
  rw [← hsame.right]
  exact List.mem_map_of_mem hj

theorem HasTokens.owns_of_restampedAt? (h : o.HasTokens) {m : Move} {j : Job}
    (hj : j ∈ (o.move w m).flights) {now : Int}
    (hrestamp : o.restampedAt? m j.hold = some now) :
    o.store.locks.owns j.key j.token = true := by
  have hcall := restampedAt?_eq_some_iff.mp hrestamp
  cases howns : o.store.locks.owns j.key j.token with
  | true => rfl
  | false => exact absurd rfl (h.hold_ne_of_lands (lands_of_lost w h.whole hcall howns) hj)

theorem HasTokens.lock_move (h : o.HasTokens) {m : Move} {j : Job}
    (hj : j ∈ (o.move w m).flights) {l : Lock} (hl : l ∈ o.store.locks.held)
    (hhold : l.hold = j.hold)
    (hfresh : ∀ cutoff, o.lockCall? m = some (.sweep cutoff) → cutoff ≤ l.stamp) :
    ∃ l' ∈ (o.move w m).store.locks.held, l'.hold = j.hold ∧
      l'.stamp = (o.restampedAt? m j.hold).getD l.stamp := by
  rw [locks_move w h.whole m, restampedAt?]
  cases hcall : o.lockCall? m with
  | none => exact ⟨l, hl, hhold, rfl⟩
  | some c =>
      have hkept : c.takes l = false := by
        cases c with
        | tryLock | refresh => rfl
        | unlock key token =>
            have hne := h.hold_ne_of_lands (lands_of_unlock w h.whole hcall) hj
            rw [← hhold, Lock.hold, Ne, Prod.mk.injEq] at hne
            simpa [LockCall.takes, Lock.isOwnedBy] using hne
        | sweep cutoff => exact decide_eq_false (Int.not_lt.mpr (hfresh cutoff hcall))
      refine ⟨_, Locks.mem_held_after_of_kept hl hkept, hhold, ?_⟩
      rw [← hhold]
      rfl

end Office
end Translation
end Parley
