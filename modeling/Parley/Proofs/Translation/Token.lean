import Parley.Proofs.Translation.Flight

/-!
# Histories of locks

Anybody may call on the locks of a store at any time, with any token. What keeps
them apart is that a token is made once, for one lock: when that lock is released
or swept away the token is spent, and whoever still has it can do nothing to the
lock that is taken in its place.
-/

namespace Parley
namespace Translation

inductive LockCall where
  | tryLock (key : ContentKey) (now : Int)
  | refresh (key : ContentKey) (token : Token) (now : Int)
  | unlock (key : ContentKey) (token : Token)
  | sweep (cutoff : Int)

namespace Locks

variable {ls : Locks} {key : ContentKey} {token : Token}

def after (ls : Locks) : LockCall → Locks
  | .tryLock key now => (ls.take key now).2
  | .refresh key token now => (ls.refresh key token now).2
  | .unlock key token => ls.release key token
  | .sweep cutoff => (ls.sweep cutoff).2

def afterAll (ls : Locks) (cs : List LockCall) : Locks :=
  cs.foldl after ls

/-!
# What one call does
-/

theorem made_le_after (ls : Locks) (c : LockCall) : ls.made ≤ (ls.after c).made := by
  cases c with
  | tryLock key now =>
      rw [after, take]
      split <;> exact Nat.le_succ ls.made
  | refresh | unlock | sweep => exact Nat.le_refl ls.made

theorem mem_holds_after {c : LockCall} {h : Hold} (hmem : h ∈ (ls.after c).holds) :
    h ∈ ls.holds ∨ h.2.number = ls.made ∧ ls.made < (ls.after c).made := by
  cases c with
  | tryLock key now =>
      rw [after] at hmem ⊢
      cases hheld : ls.isHeld key with
      | true =>
          rw [holds_take_of_held hheld] at hmem
          exact Or.inl hmem
      | false =>
          rw [holds_take_of_free hheld] at hmem
          rcases List.mem_cons.mp hmem with rfl | hold
          · exact Or.inr ⟨rfl, by simp [take, hheld]⟩
          · exact Or.inl hold
  | refresh key token now =>
      rw [after, holds_refresh] at hmem
      exact Or.inl hmem
  | unlock key token =>
      rw [after, holds_release] at hmem
      exact Or.inl (List.mem_of_mem_filter hmem)
  | sweep cutoff => exact Or.inl ((holds_sweep_sublist cutoff).subset hmem)

/-!
# Sound tables

No key is locked twice, no token owns two locks, and all tokens that own one were
made.
-/

structure IsSound (ls : Locks) : Prop where
  exclusive : ls.Exclusive
  tokens : (ls.holds.map Prod.snd).Nodup
  made : ∀ h ∈ ls.holds, h.2.number < ls.made

theorem isSound_empty : empty.IsSound where
  exclusive := exclusive_empty
  tokens := List.nodup_nil
  made h hmem := by cases hmem

theorem IsSound.of_sublist {ls' : Locks} (h : ls.IsSound) (hsub : ls'.holds.Sublist ls.holds)
    (hmade : ls'.made = ls.made) : ls'.IsSound where
  exclusive := h.exclusive.of_sublist hsub
  tokens := h.tokens.sublist (hsub.map Prod.snd)
  made hold hmem := by
    rw [hmade]
    exact h.made hold (hsub.subset hmem)

theorem IsSound.take (h : ls.IsSound) (key : ContentKey) (now : Int) :
    (ls.take key now).2.IsSound := by
  have hmade : ∀ hold ∈ (ls.take key now).2.holds, hold.2.number < (ls.take key now).2.made := by
    intro hold hmem
    rcases mem_holds_after (c := .tryLock key now) hmem with hold' | ⟨hnumber, hlt⟩
    · exact Nat.lt_of_lt_of_le (h.made hold hold') (made_le_after ls (.tryLock key now))
    · rw [hnumber]
      exact hlt
  refine ⟨h.exclusive.take, ?_, hmade⟩
  cases hheld : ls.isHeld key with
  | true =>
      rw [holds_take_of_held hheld]
      exact h.tokens
  | false =>
      rw [holds_take_of_free hheld, List.map_cons, List.nodup_cons]
      refine ⟨?_, h.tokens⟩
      intro hmem
      rcases List.mem_map.mp hmem with ⟨hold, hhold, htoken⟩
      have hlt := h.made hold hhold
      rw [htoken] at hlt
      exact Nat.lt_irrefl ls.made hlt

theorem IsSound.after (h : ls.IsSound) (c : LockCall) : (ls.after c).IsSound := by
  cases c with
  | tryLock key now => exact h.take key now
  | refresh key token now => exact h.of_sublist (by rw [Locks.after, holds_refresh]) rfl
  | unlock key token =>
      exact h.of_sublist (by rw [Locks.after, holds_release]; exact List.filter_sublist) rfl
  | sweep cutoff => exact h.of_sublist (holds_sweep_sublist cutoff) rfl

theorem IsSound.afterAll (h : ls.IsSound) (cs : List LockCall) : (ls.afterAll cs).IsSound := by
  induction cs generalizing ls with
  | nil => exact h
  | cons c cs ih => exact ih (h.after c)

/-!
# Tokens that own nothing
-/

theorem refresh_of_not_owns (h : ls.owns key token = false) (now : Int) :
    ls.refresh key token now = (false, ls) := by
  have hother : ∀ l ∈ ls.held, l.isOwnedBy key token = false := by
    simpa [owns] using h
  have hheld : ls.held.map
      (fun l => if l.isOwnedBy key token then { l with stamp := now } else l) = ls.held := by
    rw [List.map_congr_left fun l hl => by rw [hother l hl, if_neg Bool.false_ne_true]]
    exact List.map_id' ls.held
  rw [refresh, hheld, h]

theorem release_of_not_owns (h : ls.owns key token = false) : ls.release key token = ls := by
  have hother : ∀ l ∈ ls.held, l.isOwnedBy key token = false := by
    simpa [owns] using h
  have hheld : (ls.held.filter fun l => !l.isOwnedBy key token) = ls.held := by
    apply List.filter_eq_self.mpr
    intro l hl
    rw [hother l hl]
    rfl
  rw [release, hheld]

theorem owns_release_self : (ls.release key token).owns key token = false := by
  rw [← Bool.not_eq_true, owns_iff, holds_release, List.mem_filter]
  simp

theorem owns_sweep_of_stale (h : ls.IsSound) {cutoff : Int} {l : Lock} (hl : l ∈ ls.held)
    (hstale : l.stamp < cutoff) : (ls.sweep cutoff).2.owns l.key l.token = false := by
  rw [← Bool.not_eq_true, owns_iff]
  intro hmem
  rcases List.mem_map.mp hmem with ⟨l', hl', hhold⟩
  rcases List.mem_filter.mp hl' with ⟨hheld, hfresh⟩
  have hsame := h.exclusive.lock_unique hheld hl (congrArg Prod.fst hhold)
  rw [hsame] at hfresh
  simp [hstale] at hfresh

theorem isHeld_eq_false_iff :
    ls.isHeld key = false ↔ ∀ token, ls.owns key token = false := by
  constructor
  · intro hfree token
    rw [← Bool.not_eq_true, owns_iff]
    intro hmem
    rw [isHeld_iff.mpr (List.mem_map_of_mem hmem)] at hfree
    cases hfree
  · intro hnobody
    rw [← Bool.not_eq_true, isHeld_iff]
    intro hmem
    rcases List.mem_map.mp hmem with ⟨⟨_, token⟩, hhold, rfl⟩
    have howns := owns_iff.mpr hhold
    rw [hnobody token] at howns
    cases howns

/-!
# Spent tokens
-/

/-- The token was made and owns no lock. -/
structure IsSpent (ls : Locks) (token : Token) : Prop where
  made : token.number < ls.made
  owns_nothing : ∀ key, ls.owns key token = false

theorem IsSpent.after (h : ls.IsSpent token) (c : LockCall) : (ls.after c).IsSpent token := by
  refine ⟨Nat.lt_of_lt_of_le h.made (made_le_after ls c), ?_⟩
  intro key
  rw [← Bool.not_eq_true, owns_iff]
  intro hmem
  rcases mem_holds_after hmem with hold | ⟨hnumber, _⟩
  · rw [← owns_iff, h.owns_nothing key] at hold
    cases hold
  · exact absurd hnumber (Nat.ne_of_lt h.made)

theorem IsSpent.afterAll (h : ls.IsSpent token) (cs : List LockCall) :
    (ls.afterAll cs).IsSpent token := by
  induction cs generalizing ls with
  | nil => exact h
  | cons c cs ih => exact ih (h.after c)

theorem IsSound.isSpent_of_lost (h : ls.IsSound) {c : LockCall}
    (howns : ls.owns key token = true) (hlost : (ls.after c).owns key token = false) :
    (ls.after c).IsSpent token := by
  have hmade : token.number < ls.made := h.made (key, token) (owns_iff.mp howns)
  refine ⟨Nat.lt_of_lt_of_le hmade (made_le_after ls c), ?_⟩
  intro key'
  rw [← Bool.not_eq_true, owns_iff]
  intro hmem
  rcases mem_holds_after hmem with hold | ⟨hnumber, _⟩
  · have hsame := List.inj_on_of_nodup_map h.tokens hold (owns_iff.mp howns) rfl
    rw [hsame, ← owns_iff, hlost] at hmem
    cases hmem
  · exact absurd hnumber (Nat.ne_of_lt hmade)

theorem IsSound.isSpent_of_lost_in_all (h : ls.IsSound) {cs : List LockCall}
    (howns : ls.owns key token = true) (hlost : (ls.afterAll cs).owns key token = false) :
    (ls.afterAll cs).IsSpent token := by
  induction cs generalizing ls with
  | nil =>
      change ls.owns key token = false at hlost
      rw [howns] at hlost
      cases hlost
  | cons c cs ih =>
      cases hnext : (ls.after c).owns key token with
      | true => exact ih (h.after c) hnext hlost
      | false => exact (h.isSpent_of_lost howns hnext).afterAll cs

end Locks

/-!
# Stores
-/

namespace Store

variable {s : Store}

def after (s : Store) : LockCall → Store
  | .tryLock key now => (s.tryLock key now).2
  | .refresh key token now => (s.refresh key token now).2
  | .unlock key token => (s.unlock key token).2
  | .sweep cutoff => (s.sweep cutoff).2

def afterAll (s : Store) (cs : List LockCall) : Store :=
  cs.foldl after s

def ofCache (cache : Cache) : Store :=
  { empty with cache := cache }

theorem after_of_isWhole (h : s.IsWhole) (c : LockCall) :
    s.after c = { s with locks := s.locks.after c } := by
  cases c with
  | tryLock key now => rw [after, tryLock_of_isWhole h]; rfl
  | refresh key token now => rw [after, refresh_of_isWhole h]; rfl
  | unlock key token => rw [after, unlock_of_isWhole h]; rfl
  | sweep cutoff => rw [after, sweep_of_isWhole h]; rfl

theorem afterAll_of_isWhole (h : s.IsWhole) (cs : List LockCall) :
    s.afterAll cs = { s with locks := s.locks.afterAll cs } := by
  induction cs generalizing s with
  | nil => rfl
  | cons c cs ih =>
      change (s.after c).afterAll cs = _
      rw [after_of_isWhole h]
      exact ih ⟨h.hasCache, h.hasLocks⟩

theorem isWhole_afterAll (h : s.IsWhole) (cs : List LockCall) : (s.afterAll cs).IsWhole := by
  rw [afterAll_of_isWhole h]
  exact ⟨h.hasCache, h.hasLocks⟩

theorem isWhole_ofCache (cache : Cache) : (ofCache cache).IsWhole :=
  ⟨rfl, rfl⟩

theorem isSound_afterAll (h : s.IsWhole) (hsound : s.locks.IsSound) (cs : List LockCall) :
    (s.afterAll cs).locks.IsSound := by
  rw [afterAll_of_isWhole h]
  exact hsound.afterAll cs

theorem tryLock_eq_some_iff (h : s.IsWhole) (key : ContentKey) (now : Int) :
    (∃ token, (s.tryLock key now).1 = .ok (some token)) ↔
      ∀ token, s.locks.owns key token = false := by
  rw [tryLock_of_isWhole h, Locks.take_fst, ← Locks.isHeld_eq_false_iff]
  cases s.locks.isHeld key <;> simp

theorem owns_of_tryLock (h : s.IsWhole) {key : ContentKey} {token : Token} {now : Int}
    (htaken : (s.tryLock key now).1 = .ok (some token)) :
    (s.tryLock key now).2.locks.owns key token = true := by
  rw [tryLock_of_isWhole h, Locks.take_fst] at htaken
  rw [tryLock_of_isWhole h]
  change (s.locks.take key now).2.owns key token = true
  split at htaken
  · cases htaken
  · rename_i hheld
    cases htaken
    rw [Locks.owns_iff, Locks.holds_take_of_free (by simpa using hheld)]
    exact List.mem_cons_self

theorem refresh_of_not_owns (h : s.IsWhole) {key : ContentKey} {token : Token}
    (hother : s.locks.owns key token = false) (now : Int) :
    s.refresh key token now = (.ok false, s) := by
  rw [refresh_of_isWhole h, Locks.refresh_of_not_owns hother, hother]

theorem unlock_of_not_owns (h : s.IsWhole) {key : ContentKey} {token : Token}
    (hother : s.locks.owns key token = false) : s.unlock key token = (.ok (), s) := by
  rw [unlock_of_isWhole h, Locks.release_of_not_owns hother]

/-- Once a token is spent, no call ever makes it an owner again. -/
theorem owns_nothing_of_isSpent (h : s.IsWhole) {token : Token} (hspent : s.locks.IsSpent token)
    (cs : List LockCall) (key : ContentKey) : (s.afterAll cs).locks.owns key token = false := by
  rw [afterAll_of_isWhole h]
  exact (hspent.afterAll cs).owns_nothing key

/-- Whatever calls were made, a key has one owner at most, only the owner can stamp or release
its lock, and who has lost a lock never owns one again. -/
theorem token_safety (cache : Cache) (cs : List LockCall) :
    let s := (ofCache cache).afterAll cs
    (∀ key token token', s.locks.owns key token = true → s.locks.owns key token' = true →
        token = token') ∧
      (∀ key now,
        ((∃ token, (s.tryLock key now).1 = .ok (some token)) ↔
            ∀ token, s.locks.owns key token = false) ∧
          ∀ token, (s.tryLock key now).1 = .ok (some token) →
            (s.tryLock key now).2.locks.owns key token = true) ∧
      (∀ key token now, (s.refresh key token now).1 = .ok (s.locks.owns key token)) ∧
      (∀ key token, s.locks.owns key token = false →
        (∀ now, (s.refresh key token now).2 = s) ∧ (s.unlock key token).2 = s) ∧
      (∀ key token, (s.unlock key token).2.locks.owns key token = false) ∧
      (∀ cutoff, ∀ l ∈ s.locks.held, l.stamp < cutoff →
        (s.sweep cutoff).2.locks.owns l.key l.token = false) ∧
      ∀ key token more later, s.locks.owns key token = true →
        (s.afterAll more).locks.owns key token = false →
          let s' := (s.afterAll more).afterAll later
          ∀ key' now, s'.locks.owns key' token = false ∧
            s'.refresh key' token now = (.ok false, s') ∧ s'.unlock key' token = (.ok (), s') := by
  intro s
  have hwhole : s.IsWhole := isWhole_afterAll (isWhole_ofCache cache) cs
  have hsound : s.locks.IsSound :=
    isSound_afterAll (isWhole_ofCache cache) Locks.isSound_empty cs
  refine ⟨?oneOwner, ?tryLock, ?refresh, ?others, ?unlocked, ?swept, ?lost⟩
  case oneOwner =>
    intro key token token' howns howns'
    exact hsound.exclusive.owner_unique howns howns'
  case tryLock =>
    intro key now
    exact ⟨tryLock_eq_some_iff hwhole key now, fun token => owns_of_tryLock hwhole⟩
  case refresh =>
    intro key token now
    rw [refresh_of_isWhole hwhole]
  case others =>
    intro key token hother
    refine ⟨?_, by rw [unlock_of_not_owns hwhole hother]⟩
    intro now
    rw [refresh_of_not_owns hwhole hother]
  case unlocked =>
    intro key token
    rw [unlock_of_isWhole hwhole]
    exact Locks.owns_release_self
  case swept =>
    intro cutoff l hl hstale
    rw [sweep_of_isWhole hwhole]
    exact Locks.owns_sweep_of_stale hsound hl hstale
  case lost =>
    intro key token more later howns hlost s' key' now
    have hwhole' : s'.IsWhole := isWhole_afterAll (isWhole_afterAll hwhole more) later
    have hspent : (s.afterAll more).locks.IsSpent token := by
      rw [afterAll_of_isWhole hwhole] at hlost ⊢
      exact hsound.isSpent_of_lost_in_all howns hlost
    have hnothing : s'.locks.owns key' token = false :=
      owns_nothing_of_isSpent (isWhole_afterAll hwhole more) hspent later key'
    exact ⟨hnothing, refresh_of_not_owns hwhole' hnothing now, unlock_of_not_owns hwhole' hnothing⟩

/-- A lock is swept away and taken anew, and its former owner cannot touch it. -/
theorem token_safety_of_successor :
    let key : ContentKey := ⟨Vector.replicate 32 7⟩
    let s := (ofCache .empty).afterAll [.tryLock key 100]
    let more : List LockCall := [.sweep 2000, .tryLock key 2001]
    let s' := (s.afterAll more).afterAll [.refresh key ⟨1⟩ 2010]
    s.locks.owns key ⟨0⟩ = true ∧ (s.afterAll more).locks.owns key ⟨0⟩ = false ∧
      s'.locks.owns key ⟨1⟩ = true ∧ s'.locks.owns key ⟨0⟩ = false ∧
      s'.refresh key ⟨0⟩ 2020 = (.ok false, s') ∧ s'.unlock key ⟨0⟩ = (.ok (), s') := by
  intro key s more s'
  have howns : s.locks.owns key ⟨0⟩ = true := by decide
  have hlost : (s.afterAll more).locks.owns key ⟨0⟩ = false := by decide
  have hspent := (token_safety .empty [.tryLock key 100]).right.right.right.right.right.right
    key ⟨0⟩ more [.refresh key ⟨1⟩ 2010] howns hlost key 2020
  exact ⟨howns, hlost, by decide, hspent⟩

end Store
end Translation
end Parley
