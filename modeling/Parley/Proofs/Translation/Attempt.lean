import Parley.Proofs.Translation.Footprint
import Parley.Proofs.Translation.WholeEntries

/-!
# Attempts at a job

One job on its way through a store it shares with others. Each of its calls on the
store may fail, except the one that gives the lock back, and each of its chunks may
come back with a failure. Its lock may be restamped at any time while it is running,
and others may call on the store at any time. An attempt is a list of such turns, in
any order. A turn that is not possible changes nothing.
-/

namespace Parley
namespace Translation

/-!
# Calls that fail
-/

namespace Access

/-- The store when its calls fail with this error. They change nothing then, and only giving locks
back succeeds. -/
def failing (error : StoreError) : Access Store where
  refresh _ _ s := (.error error, s)
  has _ s := (.error error, s)
  insert _ s := (.error error, s)
  unlock key token s := s.unlock key token

def mayFail (now : Int) : Option StoreError → Access Store
  | none => Store.access now
  | some error => failing error

end Access

/-!
# News
-/

namespace News

/-- A store call or a backend call failed, or the lock was lost while the job was running. -/
def isFailure : News → Bool
  | .refreshed (.error _) => true
  | .found (.error _) => true
  | .translated _ (.error _) => true
  | .saved (.error _) => true
  | .restamped (.ok false) => true
  | _ => false

/-- The lock was lost before the job started, or the entry was there already. -/
def isNeedless : News → Bool
  | .refreshed (.ok false) => true
  | .found (.ok true) => true
  | .saved (.ok false) => true
  | _ => false

def isRestamped : News → Bool
  | .restamped _ => true
  | _ => false

end News

/-!
# Turns
-/

def Stage.awaits (chunk : Nat) : Stage → Bool
  | .translating replies =>
    match replies[chunk]? with
    | some none => true
    | _ => false
  | _ => false

/-- A job, the store it shares with others, what it counted, what it was told, and what each of its
own steps found and left in the store. -/
structure Attempt where
  stage : Stage
  store : Store
  counters : Counters
  told : List News
  steps : List (Footprint Store)

namespace Attempt

inductive Turn where
  /-- The job makes its next call, which may fail. -/
  | call (failure? : Option StoreError) (now : Int)
  /-- The lock of the running job is restamped, which may fail. -/
  | restamp (failure? : Option StoreError) (now : Int)
  /-- A chunk comes back. -/
  | hear (chunk : Nat) (reply : Reply)
  /-- Somebody else calls on the store. -/
  | others (c : StoreCall)

def Turn.others? : Turn → Option StoreCall
  | .others c => some c
  | .call _ _ | .restamp _ _ | .hear _ _ => none

variable (w : Windows) (j : Job)

def tell (a : Attempt) (news : News) (store : Store) : Attempt :=
  let stage := a.stage.next (j.document w).chunks.length news
  ⟨stage, store, a.counters.between a.stage stage, a.told ++ [news], a.steps ++ [⟨a.store, store⟩]⟩

def turn (a : Attempt) : Turn → Attempt
  | .call failure? now =>
    match a.stage.call (.mayFail now failure?) w now j a.store with
    | some (news, store) => a.tell w j news store
    | none => a
  | .restamp failure? now =>
    if a.stage.isRunning then
      let (news, store) := Translation.restamp (.mayFail now failure?) j a.store
      a.tell w j news store
    else a
  | .hear chunk reply =>
    if a.stage.awaits chunk then a.tell w j (.translated chunk reply) a.store else a
  | .others c => { a with store := (a.store.call c).2 }

def run (s : Store) (counters : Counters) (ts : List Turn) : Attempt :=
  ts.foldl (turn w j) ⟨.starting, s, counters, [], []⟩

end Attempt

/-!
# Counting
-/

theorem Stage.outcome?_next {stage : Stage} {outcome : Outcome} (h : stage.outcome? = some outcome)
    (chunks : Nat) (news : News) : (stage.next chunks news).outcome? = some outcome := by
  cases stage with
  | releasing | ended =>
      rcases news with _ | _ | _ | _ | _ | (_ | _ | _) <;> exact h
  | starting | checking | translating | saving => cases h

namespace Attempt

variable {counters : Counters} {a : Attempt}

def IsCounted (counters : Counters) (a : Attempt) : Prop :=
  a.counters = a.stage.outcome?.elim counters counters.add

theorem IsCounted.tell (h : IsCounted counters a) (w : Windows) (j : Job) (news : News)
    (s : Store) : IsCounted counters (a.tell w j news s) := by
  show a.counters.between a.stage (a.tell w j news s).stage = _
  rw [IsCounted] at h
  cases hbefore : a.stage.outcome? with
  | none =>
      rw [Counters.between, hbefore, h, hbefore]
      cases (a.tell w j news s).stage.outcome? <;> rfl
  | some outcome =>
      have hafter : (a.tell w j news s).stage.outcome? = some outcome :=
        Stage.outcome?_next hbefore _ news
      rw [Counters.between, hbefore, hafter, h, hbefore]

theorem IsCounted.turn (h : IsCounted counters a) (w : Windows) (j : Job) (t : Turn) :
    IsCounted counters (a.turn w j t) := by
  cases t with
  | call | restamp | hear =>
      rw [Attempt.turn]
      split
      · exact h.tell w j _ _
      · exact h
  | others c => exact h

theorem isCounted_run (w : Windows) (j : Job) (s : Store) (counters : Counters)
    (ts : List Turn) : IsCounted counters (run w j s counters ts) := by
  have hall : ∀ a, IsCounted counters a → IsCounted counters (ts.foldl (turn w j) a) := by
    induction ts with
    | nil => exact fun _ h => h
    | cons t ts ih => exact fun a h => ih _ (h.turn w j t)
  exact hall _ rfl

end Attempt

/-!
# What calls do

A job restamps its own lock, or gives it back, and touches no other. To the cache it
adds at most its entry.
-/

namespace Store

variable {s s' : Store} {key : ContentKey} {token : Token} {now : Int} {t : Table}

/-- The stores have the same locks besides this one. -/
structure SameBesides (hold : Hold) (s s' : Store) : Prop where
  hasLocks : s'.hasLocks = s.hasLocks
  besides : s'.locks.besides [hold] = s.locks.besides [hold]

theorem SameBesides.refl (hold : Hold) (s : Store) : SameBesides hold s s :=
  ⟨rfl, rfl⟩

theorem AgreeOn.symm (h : AgreeOn t s s') : AgreeOn t s' s := by
  cases t <;> exact ⟨h.left.symm, h.right.symm⟩

theorem AgreeOn.trans {s'' : Store} (h : AgreeOn t s s') (h' : AgreeOn t s' s'') :
    AgreeOn t s s'' := by
  cases t <;> exact ⟨h.left.trans h'.left, h.right.trans h'.right⟩

theorem AgreeOn.call_both (h : AgreeOn t s s') (c : StoreCall) :
    AgreeOn t (s.call c).2 (s'.call c).2 := by
  by_cases hc : c.table = t
  · subst hc
    exact h.call.right
  · exact ((h.call_left hc).symm.call_left hc).symm

theorem afterCalls_concat (s : Store) (cs : List StoreCall) (c : StoreCall) :
    s.afterCalls (cs ++ [c]) = ((s.afterCalls cs).call c).2 :=
  List.foldl_append

def withRow (s : Store) (row : Row) : Store :=
  { s with cache := ⟨s.cache.rows ++ [row]⟩ }

theorem insert_cases (s : Store) (e : Entry) :
    (∃ error, s.insert e = (.error error, s)) ∨ s.insert e = (.ok false, s) ∨
      s.cache.row? e.key = none ∧ s.insert e = (.ok true, s.withRow (Row.ofEntry e)) := by
  cases hcache : s.hasCache with
  | false =>
      refine Or.inl ⟨.database, ?_⟩
      rw [insert, hcache]
      rfl
  | true =>
      right
      rw [insert, if_pos hcache, Cache.insert, Cache.addRow]
      cases hany : s.cache.rows.any fun r => r.key == (Row.ofEntry e).key with
      | true => exact Or.inl rfl
      | false =>
          refine Or.inr ⟨?_, rfl⟩
          rw [Cache.row?, ← Option.not_isSome_iff_eq_none, List.isSome_find?]
          exact Bool.eq_false_iff.mp hany

end Store

namespace Access

variable {s : Store} {key : ContentKey} {token : Token} {now : Int}
  {failure? : Option StoreError}

theorem agreeOn_refresh :
    Store.AgreeOn .cache ((mayFail now failure?).refresh key token s).2 s := by
  cases failure? with
  | some error => exact Store.agreeOn_refl .cache s
  | none =>
      exact (Store.agreeOn_refl .cache s).call_left (c := .lock (.refresh key token now)) nofun

theorem sameBesides_refresh :
    Store.SameBesides (key, token) s ((mayFail now failure?).refresh key token s).2 := by
  cases failure? with
  | some error => exact .refl _ s
  | none =>
      show Store.SameBesides _ s (s.refresh key token now).2
      rw [Store.refresh]
      split
      · exact ⟨rfl, Locks.besides_refresh (List.mem_singleton_self _) now⟩
      · exact .refl _ s

theorem not_owns_of_refresh (h : ((mayFail now failure?).refresh key token s).1 = .ok false) :
    ((mayFail now failure?).refresh key token s).2.locks.owns key token = false := by
  cases failure? with
  | some error => cases h
  | none =>
      change (s.refresh key token now).1 = .ok false at h
      show (s.refresh key token now).2.locks.owns key token = false
      rw [Store.refresh] at h ⊢
      split at h
      · rename_i hlocks
        have howns : s.locks.owns key token = false := Except.ok.inj h
        rw [if_pos hlocks, Locks.refresh_of_not_owns howns]
        exact howns
      · cases h

theorem has_snd : ((mayFail now failure?).has key s).2 = s := by
  cases failure? <;> rfl

theorem insert_cases (s : Store) (now : Int) (failure? : Option StoreError) (e : Entry) :
    (∃ error, (mayFail now failure?).insert e s = (.error error, s)) ∨
      (mayFail now failure?).insert e s = (.ok false, s) ∨
      s.cache.row? e.key = none ∧
        (mayFail now failure?).insert e s = (.ok true, s.withRow (Row.ofEntry e)) := by
  cases failure? with
  | some error => exact Or.inl ⟨error, rfl⟩
  | none => exact s.insert_cases e

theorem sameBesides_insert (hold : Hold) (e : Entry) :
    Store.SameBesides hold s ((mayFail now failure?).insert e s).2 := by
  rcases insert_cases s now failure? e with
    ⟨error, heq⟩ | heq | ⟨_, heq⟩
  · rw [heq]
    exact .refl _ s
  · rw [heq]
    exact .refl _ s
  · rw [heq]
    exact ⟨rfl, rfl⟩

theorem unlock_eq : (mayFail now failure?).unlock key token s = s.unlock key token := by
  cases failure? <;> rfl

end Access

theorem Store.sameBesides_unlock {s : Store} {key : ContentKey} {token : Token} :
    SameBesides (key, token) s (s.unlock key token).2 := by
  rw [unlock]
  split
  · exact ⟨rfl, Locks.besides_release (List.mem_singleton_self _)⟩
  · exact .refl _ s

theorem Stage.sameBesides_call {w : Windows} {j : Job} {s s' : Store} {stage : Stage} {now : Int}
    {failure? : Option StoreError} {news : News}
    (h : stage.call (.mayFail now failure?) w now j s = some (news, s')) :
    Store.SameBesides (j.key, j.token) s s' := by
  cases stage with
  | starting =>
      cases h
      exact Access.sameBesides_refresh
  | checking =>
      cases h
      rw [Access.has_snd]
      exact .refl _ s
  | saving outputs =>
      cases h
      exact Access.sameBesides_insert _ _
  | releasing outcome =>
      cases h
      rw [Access.unlock_eq]
      exact Store.sameBesides_unlock
  | translating | ended => cases h

/-!
# How far a job is from its end
-/

theorem exists_none_of_inOrder {replies : List (Option Reply)} (h : inOrder replies = .waiting) :
    ∃ i : Nat, replies[i]? = some none := by
  induction replies with
  | nil => cases h
  | cons reply rest ih =>
      rcases reply with _ | _ | output
      · exact ⟨0, rfl⟩
      · cases h
      · rw [inOrder] at h
        split at h
        · cases h
        · rcases ih h with ⟨i, hi⟩
          exact ⟨i + 1, hi⟩

theorem exists_none_of_waiting {replies : List (Option Reply)} (h : verdict replies = .waiting) :
    ∃ i : Nat, replies[i]? = some none := by
  rw [verdict] at h
  split at h
  · cases h
  · exact exists_none_of_inOrder h

theorem countP_isNone_set {replies : List (Option Reply)} {i : Nat} (h : replies[i]? = some none)
    (reply : Reply) :
    (replies.set i (some reply)).countP Option.isNone + 1 = replies.countP Option.isNone := by
  rcases List.getElem?_eq_some_iff.mp h with ⟨hi, hnone⟩
  have hpos : 0 < replies.countP Option.isNone :=
    List.countP_pos_iff.mpr ⟨none, List.mem_of_getElem? h, rfl⟩
  rw [List.countP_set hi, hnone]
  exact Nat.sub_add_cancel hpos

namespace Stage

def turnsLeft (chunks : Nat) : Stage → Nat
  | .starting => chunks + 4
  | .checking => chunks + 3
  | .translating replies => replies.countP Option.isNone + 2
  | .saving _ => 2
  | .releasing _ => 1
  | .ended _ => 0

theorem ended_of_turnsLeft (chunks : Nat) {stage : Stage} (h : stage.turnsLeft chunks = 0) :
    ∃ outcome, stage = .ended outcome := by
  cases stage with
  | ended outcome => exact ⟨outcome, rfl⟩
  | starting | checking | translating | saving | releasing => cases h

theorem turnsLeft_ofVerdict (chunks : Nat) (replies : List (Option Reply)) :
    (ofVerdict replies).turnsLeft chunks ≤ replies.countP Option.isNone + 2 := by
  rw [ofVerdict]
  split
  · exact Nat.le_refl _
  · exact Nat.le_add_left 1 _
  · exact Nat.le_add_left 2 _

theorem next_restamped_error (stage : Stage) (chunks : Nat) (error : StoreError) :
    stage.next chunks (.restamped (.error error)) = stage := by
  cases stage <;> rfl

theorem turnsLeft_restamped (chunks : Nat) (stage : Stage) (result : Except StoreError Bool) :
    (stage.next chunks (.restamped result)).turnsLeft chunks ≤ stage.turnsLeft chunks := by
  rcases result with e | _ | _
  · rw [next_restamped_error]
  · cases stage with
    | checking | translating | saving => exact Nat.zero_le _
    | starting | releasing | ended => exact Nat.le_refl _
  · rw [next_restamped_true]

theorem getElem?_of_awaits {chunk : Nat} {replies : List (Option Reply)}
    (h : (translating replies).awaits chunk = true) : replies[chunk]? = some none := by
  rw [awaits] at h
  split at h
  · assumption
  · cases h

theorem turnsLeft_translated {chunks chunk : Nat} {stage : Stage} (h : stage.awaits chunk = true)
    (reply : Reply) :
    (stage.next chunks (.translated chunk reply)).turnsLeft chunks + 1 ≤
      stage.turnsLeft chunks := by
  cases stage with
  | translating replies =>
      have hnone := getElem?_of_awaits h
      have hleft := turnsLeft_ofVerdict chunks (replies.set chunk (some reply))
      have hcount := countP_isNone_set hnone reply
      show (ofVerdict _).turnsLeft chunks + 1 ≤ replies.countP Option.isNone + 2
      omega
  | starting | checking | saving | releasing | ended => cases h

theorem turnsLeft_call {σ : Type} {access : Access σ} {w : Windows} {now : Int} {j : Job}
    {stage : Stage} {s s' : σ} {news : News} (h : stage.call access w now j s = some (news, s'))
    (chunks : Nat) :
    (stage.next chunks news).turnsLeft chunks + 1 ≤ stage.turnsLeft chunks ∧
      news.isRestamped = false := by
  cases stage with
  | starting =>
      cases h
      generalize (access.refresh j.key j.token s).1 = result
      rcases result with e | _ | _
      · exact ⟨Nat.le_add_left 2 _, rfl⟩
      · exact ⟨Nat.le_add_left 1 _, rfl⟩
      · exact ⟨Nat.le_refl _, rfl⟩
  | checking =>
      cases h
      generalize (access.has j.key s).1 = result
      rcases result with e | _ | _
      · exact ⟨Nat.le_add_left 2 _, rfl⟩
      · refine ⟨?_, rfl⟩
        have hleft := turnsLeft_ofVerdict chunks (List.replicate chunks none)
        rw [List.countP_replicate] at hleft
        show (ofVerdict _).turnsLeft chunks + 1 ≤ chunks + 3
        exact Nat.succ_le_succ hleft
      · exact ⟨Nat.le_add_left 2 _, rfl⟩
  | saving outputs =>
      cases h
      generalize (access.insert (j.entry w now outputs) s).1 = result
      rcases result with e | _ | _ <;> exact ⟨Nat.le_refl 2, rfl⟩
  | releasing outcome =>
      cases h
      exact ⟨Nat.le_refl 1, rfl⟩
  | translating | ended => cases h

end Stage

end Translation
end Parley
