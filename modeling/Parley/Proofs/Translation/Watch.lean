import Parley.Proofs.Translation.Expiry
import Parley.Proofs.Translation.News

/-!
# Live jobs keep their locks

Jobs in the queue are not restamped, so a sweep may take their locks away, and then
several jobs of one key wait for the worker. From its start on a job restamps its
lock, and by a clock that never goes back no sweep finds the stamp of a running job
stale. So a job that runs owns the lock of its key, and there is no other one.
-/

namespace Parley
namespace Translation

/-!
# Clocks
-/

def Office.Move.isAt (ttl : Nat) (now : Int) : Office.Move → Bool
  | .proceed _ time | .call _ time | .restamp _ time => time = now
  | .sweep cutoff => cutoff = staleBefore now ttl
  | .come _ | .take | .start | .shut | .post _ _ | .hear _ _ _ => true

def LockCall.isAt (ttl : Nat) (now : Int) : LockCall → Bool
  | .tryLock _ time | .refresh _ _ time => time = now
  | .sweep cutoff => cutoff = staleBefore now ttl
  | .unlock _ _ => true

theorem Office.isAt_lockCall {o : Office} {m : Office.Move} {c : LockCall} {ttl : Nat} {now : Int}
    (hcall : o.lockCall? m = some c) (hat : m.isAt ttl now = true) : c.isAt ttl now = true := by
  cases m with
  | proceed errand time =>
      rcases Option.bind_eq_some_iff.mp hcall with ⟨⟨r, stage⟩, _, hstage⟩
      cases stage with
      | locking =>
          rw [← Option.some.inj hstage]
          exact hat
      | returning token =>
          rw [← Option.some.inj hstage]
          rfl
      | looking | queueing | answered => cases hstage
  | call task time =>
      rcases Option.bind_eq_some_iff.mp hcall with ⟨⟨job, stage, out⟩, _, hstage⟩
      cases stage with
      | starting =>
          rw [← Option.some.inj hstage]
          exact hat
      | releasing outcome =>
          rw [← Option.some.inj hstage]
          rfl
      | checking | translating | saving | ended => cases hstage
  | restamp task time =>
      rcases Option.map_eq_some_iff.mp hcall with ⟨t, _, rfl⟩
      exact hat
  | sweep cutoff =>
      rw [← Option.some.inj hcall]
      exact hat
  | come | take | start | shut | post | hear => cases hcall

/-!
# Watches
-/

def Office.ofStore (s : Store) (capacity : Nat) (enabled : Bool) (slots : Nat) : Office :=
  (Office.ofCache s.cache capacity enabled slots).withStore s

/-- An office, the time, and when each owner of a lock last restamped it. -/
structure Watch where
  office : Office
  clock : Int
  stamped : Hold → Int

namespace Watch

variable {w : Windows} {x : Watch} {ttl : Nat} {now : Int} {m : Office.Move}

def ofOffice (o : Office) : Watch :=
  ⟨o, 0, fun _ => 0⟩

def setClock (x : Watch) (now : Int) : Watch :=
  { x with clock := now }

def step (w : Windows) (x : Watch) (now : Int) (m : Office.Move) : Watch where
  office := x.office.move w m
  clock := now
  stamped hold := (x.office.restampedAt? m hold).getD (x.stamped hold)

def run (w : Windows) (x : Watch) (ms : List (Int × Office.Move)) : Watch :=
  ms.foldl (fun x timed => x.step w timed.1 timed.2) x

theorem office_run (w : Windows) (x : Watch) (ms : List (Int × Office.Move)) :
    (x.run w ms).office = x.office.run w (ms.map Prod.snd) := by
  induction ms generalizing x with
  | nil => rfl
  | cons timed ms ih => exact ih (x.step w timed.1 timed.2)

def isLive (x : Watch) (t : Task) : Bool :=
  t.stage.isAtWork && x.clock - restampSecs ≤ x.stamped t.job.hold

/-- Running jobs restamp their locks in time. -/
def IsPrompt (x : Watch) : Prop :=
  ∀ t ∈ x.office.tasks, t.stage.isRunning = true → x.isLive t = true

instance (x : Watch) : Decidable x.IsPrompt :=
  inferInstanceAs (Decidable (∀ t ∈ x.office.tasks, _))

/-- The clock never goes back, every call is made at the time that it says, and whenever
something happens the running jobs have restamped their locks in time. -/
def IsTimely (w : Windows) (ttl : Nat) : Watch → List (Int × Office.Move) → Prop
  | _, [] => True
  | x, (now, m) :: ms =>
    x.clock ≤ now ∧ now < 9223372036854775808 ∧ m.isAt ttl now = true ∧
      (x.setClock now).IsPrompt ∧ IsTimely w ttl (x.step w now m) ms

instance decidableIsTimely (w : Windows) (ttl : Nat) :
    (x : Watch) → (ms : List (Int × Office.Move)) → Decidable (x.IsTimely w ttl ms)
  | _, [] => .isTrue trivial
  | x, (now, m) :: ms =>
    have := decidableIsTimely w ttl (x.step w now m) ms
    inferInstanceAs (Decidable (_ ∧ _ ∧ _ ∧ _ ∧ _))

/-!
# Guarded locks
-/

def KeepsLocks (ttl : Nat) (x : Watch) : Prop :=
  ∀ t ∈ x.office.tasks, t.stage.isAtWork = true → x.clock - ttl ≤ x.stamped t.job.hold →
    ∃ l ∈ x.office.store.locks.held, l.hold = t.job.hold ∧ l.stamp = x.stamped t.job.hold

structure IsGuarded (ttl : Nat) (x : Watch) : Prop where
  tokens : x.office.HasTokens
  exclusive : x.office.store.locks.Exclusive
  begun : 0 ≤ x.clock
  prompt : x.IsPrompt
  locked : x.KeepsLocks ttl
  spared : ∀ t ∈ x.office.tasks, t.stage.outcome? ≠ some .abandoned

theorem isLive_iff {t : Task} :
    x.isLive t = true ↔
      t.stage.isAtWork = true ∧ x.clock - restampSecs ≤ x.stamped t.job.hold := by
  simp [isLive]

theorem IsGuarded.owns (h : x.IsGuarded ttl) (hrestamp : restampSecs < ttl) {t : Task}
    (ht : t ∈ x.office.tasks) (hlive : x.isLive t = true) :
    x.office.store.locks.owns t.job.key t.job.token = true := by
  rcases isLive_iff.mp hlive with ⟨hwork, hstamped⟩
  rcases h.locked t ht hwork (by omega) with ⟨l, hl, hhold, _⟩
  have hmem : l.hold ∈ x.office.store.locks.holds := List.mem_map_of_mem hl
  rw [hhold] at hmem
  exact Locks.owns_iff.mpr hmem

theorem IsGuarded.setClock (h : x.IsGuarded ttl) (hnow : x.clock ≤ now)
    (hprompt : (x.setClock now).IsPrompt) : (x.setClock now).IsGuarded ttl where
  tokens := h.tokens
  exclusive := h.exclusive
  begun := Int.le_trans h.begun hnow
  prompt := hprompt
  locked t ht hwork hfresh := h.locked t ht hwork (by dsimp only [Watch.setClock] at hfresh; omega)
  spared := h.spared

theorem IsGuarded.keepsLocks_step (h : x.IsGuarded ttl) (hsmall : x.clock < 9223372036854775808)
    (httl : ttl < 9223372036854775808) (hat : m.isAt ttl x.clock = true) :
    (x.step w x.clock m).KeepsLocks ttl := by
  intro t' ht' hwork' hfresh'
  have hflight : t'.job ∈ (x.office.move w m).flights :=
    Office.mem_flights_of_task ht' (Stage.isOver_of_isAtWork hwork')
  change x.clock - ttl ≤ (x.office.restampedAt? m t'.job.hold).getD _ at hfresh'
  change ∃ l ∈ (x.office.move w m).store.locks.held, l.hold = t'.job.hold ∧
    l.stamp = (x.office.restampedAt? m t'.job.hold).getD _
  cases hrestamp : x.office.restampedAt? m t'.job.hold with
  | some time =>
      have howns := h.tokens.owns_of_restampedAt? hflight hrestamp
      rcases List.mem_map.mp (Locks.owns_iff.mp howns) with ⟨l, hl, hhold⟩
      have hlock := h.tokens.lock_move hflight hl hhold ?_
      · rw [hrestamp] at hlock
        exact hlock
      · intro cutoff hsweep
        rw [Office.restampedAt?_eq_some_iff.mp hrestamp] at hsweep
        cases hsweep
  | none =>
      rw [hrestamp] at hfresh'
      rcases Office.source_of_next rfl Stage.isAtWork_next h.tokens.whole ht' hwork' with
        ⟨t, ht, hjob, hsource⟩
      rw [hjob] at hflight hfresh' hrestamp ⊢
      rcases hsource with hwork | ⟨time, hasked⟩
      · rcases h.locked t ht hwork hfresh' with ⟨l, hl, hhold, hstamp⟩
        have hlock := h.tokens.lock_move hflight hl hhold ?_
        · rw [hrestamp, hstamp] at hlock
          exact hlock
        · intro cutoff hsweep
          have hcutoff := of_decide_eq_true (Office.isAt_lockCall hsweep hat)
          rw [staleBefore_eq h.begun hsmall (by have := h.begun; omega)] at hcutoff
          rw [hcutoff, hstamp]
          exact hfresh'
      · rw [hrestamp] at hasked
        cases hasked

theorem IsGuarded.isPrompt_step (h : x.IsGuarded ttl) (hat : m.isAt ttl x.clock = true) :
    (x.step w x.clock m).IsPrompt := by
  intro t' ht' hrunning'
  rw [isLive_iff]
  refine ⟨Stage.isAtWork_of_isRunning hrunning', ?_⟩
  change x.clock - restampSecs ≤ (x.office.restampedAt? m t'.job.hold).getD _
  cases hrestamp : x.office.restampedAt? m t'.job.hold with
  | some time =>
      have hcall := Office.restampedAt?_eq_some_iff.mp hrestamp
      have htime : time = x.clock := of_decide_eq_true (Office.isAt_lockCall hcall hat)
      rw [Option.getD_some, htime]
      exact Int.sub_le_self _ (Int.natCast_nonneg _)
  | none =>
      rcases Office.source_of_next rfl Stage.isRunning_next h.tokens.whole ht' hrunning' with
        ⟨t, ht, hjob, hrunning | ⟨time, hasked⟩⟩
      · rw [hjob]
        exact (isLive_iff.mp (h.prompt t ht hrunning)).right
      · rw [← hjob, hrestamp] at hasked
        cases hasked

theorem IsGuarded.spared_step (h : x.IsGuarded ttl) (hrestamp : restampSecs < ttl) :
    ∀ t' ∈ (x.step w x.clock m).office.tasks, t'.stage.outcome? ≠ some .abandoned := by
  intro t' ht' habandoned
  rcases Office.abandoned_source h.tokens.whole ht' habandoned with
    ⟨t, ht, hbefore | ⟨hrunning, hlost⟩⟩
  · exact h.spared t ht hbefore
  · rw [h.owns hrestamp ht (h.prompt t ht hrunning)] at hlost
    cases hlost

theorem IsGuarded.step (h : x.IsGuarded ttl) (hrestamp : restampSecs < ttl)
    (httl : ttl < 9223372036854775808) (hsmall : x.clock < 9223372036854775808)
    (hat : m.isAt ttl x.clock = true) : (x.step w x.clock m).IsGuarded ttl where
  tokens := h.tokens.move m
  exclusive := Office.exclusive_move w h.tokens.whole h.exclusive m
  begun := h.begun
  prompt := h.isPrompt_step hat
  locked := h.keepsLocks_step hsmall httl hat
  spared := h.spared_step hrestamp

theorem IsGuarded.run (h : x.IsGuarded ttl) (hrestamp : restampSecs < ttl)
    (httl : ttl < 9223372036854775808) {ms : List (Int × Office.Move)}
    (hms : x.IsTimely w ttl ms) : (x.run w ms).IsGuarded ttl := by
  induction ms generalizing x with
  | nil => exact h
  | cons timed ms ih =>
      rcases timed with ⟨now, m⟩
      rcases hms with ⟨hnow, hsmall, hat, hprompt, hrest⟩
      have hclock : (x.setClock now).IsGuarded ttl := h.setClock hnow hprompt
      exact ih (hclock.step hrestamp httl hsmall hat) hrest

theorem IsGuarded.countP_isLive_le_one (h : x.IsGuarded ttl) (hrestamp : restampSecs < ttl)
    (key : ContentKey) :
    (x.office.tasks.countP fun t => x.isLive t ∧ t.job.key = key) ≤ 1 := by
  have hlive : ∀ t ∈ x.office.tasks, decide (x.isLive t = true ∧ t.job.key = key) = true →
      x.office.store.locks.owns key t.job.token = true := by
    intro t ht hp
    rcases of_decide_eq_true hp with ⟨hlive, rfl⟩
    exact h.owns hrestamp ht hlive
  have hnodup := h.tokens.nodup_of_not_over
    (p := fun t => decide (x.isLive t = true ∧ t.job.key = key)) fun t _ hp =>
      Stage.isOver_of_isAtWork (isLive_iff.mp (of_decide_eq_true hp).left).left
  rw [List.countP_eq_length_filter]
  generalize hls : x.office.tasks.filter
    (fun t => decide (x.isLive t = true ∧ t.job.key = key)) = live at hnodup ⊢
  have howns : ∀ t ∈ live, x.office.store.locks.owns key t.job.token = true := by
    intro t ht
    rw [← hls, List.mem_filter] at ht
    exact hlive t ht.left ht.right
  -- All live jobs of the key own its one lock, and no two jobs have one token.
  cases live with
  | nil => exact Nat.zero_le 1
  | cons t rest =>
      cases rest with
      | nil => exact Nat.le_refl 1
      | cons t' rest =>
          have hsame : t.job.token = t'.job.token :=
            h.exclusive.owner_unique (howns t List.mem_cons_self)
              (howns t' (List.mem_cons_of_mem t List.mem_cons_self))
          rw [List.map_cons, List.map_cons, List.nodup_cons] at hnodup
          rw [hsame] at hnodup
          exact absurd List.mem_cons_self hnodup.left

/-!
# Runs
-/

theorem isGuarded_ofStore {s : Store} (hwhole : s.IsWhole) (hexclusive : s.locks.Exclusive)
    (capacity : Nat) (enabled : Bool) (slots ttl : Nat) :
    (ofOffice (Office.ofStore s capacity enabled slots)).IsGuarded ttl where
  tokens := ⟨hwhole, List.nodup_nil, fun j hj => by cases hj⟩
  exclusive := hexclusive
  begun := Int.le_refl 0
  prompt t ht := by cases ht
  locked t ht := by cases ht
  spared t ht := by cases ht

/-- If running jobs restamp their locks in time and the time to live is longer than that, each of
them owns its lock, as it does until it has given the lock back; no job is abandoned, and a key
has one live job at most. -/
theorem live_jobs_keep_locks (w : Windows) (s : Store) (hwhole : s.IsWhole)
    (hexclusive : s.locks.Exclusive) (capacity : Nat) (enabled : Bool) (slots ttl : Nat)
    (hrestamp : restampSecs < ttl) (httl : ttl < 9223372036854775808)
    (ms : List (Int × Office.Move))
    (hms : (ofOffice (Office.ofStore s capacity enabled slots)).IsTimely w ttl ms) :
    let x := (ofOffice (Office.ofStore s capacity enabled slots)).run w ms
    let o := (Office.ofStore s capacity enabled slots).run w (ms.map Prod.snd)
    (∀ t ∈ o.tasks, t.stage.isRunning = true → x.isLive t = true) ∧
      (∀ t ∈ o.tasks, x.isLive t = true → o.store.locks.owns t.job.key t.job.token = true) ∧
      (∀ t ∈ o.tasks, t.stage.outcome? ≠ some .abandoned) ∧
      ∀ key, (o.tasks.countP fun t => x.isLive t ∧ t.job.key = key) ≤ 1 := by
  intro x o
  have hguarded : x.IsGuarded ttl :=
    (isGuarded_ofStore hwhole hexclusive capacity enabled slots ttl).run hrestamp httl hms
  have hoffice : x.office = o := office_run w _ ms
  rw [← hoffice]
  refine ⟨hguarded.prompt, ?_, hguarded.spared, ?_⟩
  · intro t ht hlive
    exact hguarded.owns hrestamp ht hlive
  · intro key
    exact hguarded.countP_isLive_le_one hrestamp key

/-- Two jobs of one key wait for the worker, since the lock of the first was swept away. The
first job is skipped, and a sweep spares the lock of the second. -/
theorem live_jobs_keep_locks_of_two_jobs :
    let r : Request := ⟨"Hi", "de", .plain, .summary⟩
    let ms : List (Int × Office.Move) :=
      [(5, .come r), (5, .proceed 0 5), (5, .proceed 0 5), (5, .proceed 0 5), (37, .sweep 6),
        (40, .come r), (40, .proceed 1 40), (40, .proceed 1 40), (41, .proceed 1 41), (60, .take),
        (60, .start), (60, .take), (60, .start), (60, .call 0 60), (60, .call 1 60),
        (90, .restamp 1 90), (95, .sweep 64)]
    (ofOffice (Office.ofStore .empty 2 true 2)).IsTimely {} 31 ms ∧
      (((Office.ofStore .empty 2 true 2).run {} (ms.map Prod.snd)).tasks.map
        fun t => t.stage.isRunning) = [false, true] ∧
      (∀ t ∈ ((Office.ofStore .empty 2 true 2).run {} (ms.map Prod.snd)).tasks,
        t.stage.isRunning = true →
          ((Office.ofStore .empty 2 true 2).run {} (ms.map Prod.snd)).store.locks.owns
            t.job.key t.job.token = true) ∧
      (((Office.ofStore .empty 2 true 2).run {} (ms.map Prod.snd)).tasks.countP fun t =>
        ((ofOffice (Office.ofStore .empty 2 true 2)).run {} ms).isLive t ∧ t.job.key = r.key) ≤
        1 := by
  intro r ms
  have htimely : (ofOffice (Office.ofStore .empty 2 true 2)).IsTimely {} 31 ms := by
    decide +kernel
  have hstages : (((Office.ofStore .empty 2 true 2).run {} (ms.map Prod.snd)).tasks.map
      fun t => t.stage.isRunning) = [false, true] := by
    decide +kernel
  have hlive := live_jobs_keep_locks {} .empty ⟨rfl, rfl⟩ Locks.exclusive_empty 2 true 2 31
    (by decide) (by decide) ms htimely
  refine ⟨htimely, hstages, ?_, hlive.right.right.right r.key⟩
  intro t ht hrunning
  exact hlive.right.left t ht (hlive.left t ht hrunning)

end Watch
end Translation
end Parley
