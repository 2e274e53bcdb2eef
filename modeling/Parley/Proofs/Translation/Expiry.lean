import Parley.Translation.Sweep

/-!
# What a sweep takes

A sweep is meant for the locks that were last stamped longer ago than the time to
live, and it finds them by one instant, which is reckoned in 64 bits with a sign.
That instant is right for every time to live up to `9223372036854775808` seconds
more than the clock shows. Every longer one makes it an instant to come, and the
sweep then releases all locks, although none of them has expired.
-/

namespace Parley
namespace Translation

variable {now : Int} {ttl : Nat}

/-!
# The instant before which locks are stale
-/

/-- The two's complements of a long time to live and of the difference make up for each other. -/
theorem staleBefore_eq (hbegun : 0 ≤ now) (hsmall : now < 9223372036854775808)
    (httl : (ttl : Int) ≤ 9223372036854775808 + now) : staleBefore now ttl = now - ttl := by
  simp only [staleBefore, signed64]
  omega

theorem lt_staleBefore (hbegun : 0 ≤ now) (hlong : 9223372036854775808 + now < (ttl : Int))
    (httl : ttl < 18446744073709551616) : now < staleBefore now ttl := by
  have hinstant : staleBefore now ttl = now - ttl + 18446744073709551616 := by
    simp only [staleBefore, signed64]
    omega
  omega

/-!
# Expired locks
-/

/-- Whether a lock was stamped more than `ttl` seconds ago. -/
def Lock.isExpired (now : Int) (ttl : Nat) (l : Lock) : Bool :=
  (ttl : Int) < now - l.stamp

theorem Lock.isExpired_iff {l : Lock} : l.isExpired now ttl = true ↔ (ttl : Int) < now - l.stamp :=
  decide_eq_true_iff

theorem Locks.sweep_eq {ls : Locks} {cutoff : Int} {takes : Lock → Bool}
    (h : ∀ l ∈ ls.held, decide (l.stamp < cutoff) = takes l) :
    ls.sweep cutoff =
      (ls.held.countP takes, { ls with held := ls.held.filter fun l => !takes l }) := by
  have hcount : ls.held.countP (fun l => l.stamp < cutoff) = ls.held.countP takes := by
    apply List.countP_congr
    intro l hl
    rw [h l hl]
  have hkept : ls.held.filter (fun l => !(l.stamp < cutoff)) =
      ls.held.filter fun l => !takes l := by
    apply List.filter_congr
    intro l hl
    rw [h l hl]
  rw [Locks.sweep, hcount, hkept]

namespace Store

variable {s : Store}

/-- Takes the expired locks, counts them, and leaves all else as it is. -/
def sweepExpired (s : Store) (now : Int) (ttl : Nat) : Except StoreError Nat × Store :=
  (.ok (s.locks.held.countP (Lock.isExpired now ttl)),
    { s with
      locks := { s.locks with held := s.locks.held.filter fun l => !l.isExpired now ttl } })

theorem mem_sweepExpired {l : Lock} :
    l ∈ (s.sweepExpired now ttl).2.locks.held ↔ l ∈ s.locks.held ∧ now - l.stamp ≤ ttl := by
  show l ∈ s.locks.held.filter _ ↔ _
  rw [List.mem_filter, Bool.not_eq_true', ← Bool.not_eq_true, Lock.isExpired_iff, Int.not_lt]

theorem sweepStale_eq (htable : s.hasLocks = true) (takes : Lock → Bool)
    (h : ∀ l ∈ s.locks.held, decide (l.stamp < staleBefore now ttl) = takes l) :
    s.sweepStale now ttl =
      (.ok (s.locks.held.countP takes),
        { s with locks := { s.locks with held := s.locks.held.filter fun l => !takes l } }) := by
  rw [sweepStale, sweep, if_pos htable, Locks.sweep_eq h]

theorem sweepStale_eq_sweepExpired (htable : s.hasLocks = true) (hbegun : 0 ≤ now)
    (hsmall : now < 9223372036854775808) (httl : (ttl : Int) ≤ 9223372036854775808 + now) :
    s.sweepStale now ttl = s.sweepExpired now ttl := by
  apply sweepStale_eq htable (Lock.isExpired now ttl)
  intro l _
  rw [staleBefore_eq hbegun hsmall httl, Lock.isExpired, decide_eq_decide]
  omega

theorem sweepStale_of_long (htable : s.hasLocks = true)
    (hstamps : ∀ l ∈ s.locks.held, 0 ≤ l.stamp ∧ l.stamp ≤ now) (hbegun : 0 ≤ now)
    (hlong : 9223372036854775808 + now < (ttl : Int)) (httl : ttl < 18446744073709551616) :
    s.sweepStale now ttl =
      (.ok s.locks.held.length, { s with locks := { s.locks with held := [] } }) := by
  have hinstant := lt_staleBefore hbegun hlong httl
  have hall : ∀ l ∈ s.locks.held, decide (l.stamp < staleBefore now ttl) = true := by
    intro l hl
    exact decide_eq_true (Int.lt_of_le_of_lt (hstamps l hl).right hinstant)
  rw [sweepStale_eq htable (fun _ => true) hall]
  simp

/-- A sweep takes exactly the expired locks, and counts them, for those times to live that are at
most `9223372036854775808` seconds longer than the clock has run. For a longer one no lock has
expired, and the sweep takes them all. -/
theorem sweep_takes_expired_iff (htable : s.hasLocks = true)
    (hstamps : ∀ l ∈ s.locks.held, 0 ≤ l.stamp ∧ l.stamp ≤ now) (hbegun : 0 ≤ now)
    (hsmall : now < 9223372036854775808) (httl : ttl < 18446744073709551616) :
    (s.sweepStale now ttl = s.sweepExpired now ttl ↔
        (ttl : Int) ≤ 9223372036854775808 + now ∨ s.locks.held = []) ∧
      ((ttl : Int) ≤ 9223372036854775808 + now → ∀ l ∈ s.locks.held, now - l.stamp ≤ ttl →
        l ∈ (s.sweepStale now ttl).2.locks.held) ∧
      (9223372036854775808 + now < (ttl : Int) →
        (∀ l ∈ s.locks.held, l.isExpired now ttl = false) ∧
          s.sweepStale now ttl =
            (.ok s.locks.held.length, { s with locks := { s.locks with held := [] } })) := by
  have hright : (ttl : Int) ≤ 9223372036854775808 + now →
      s.sweepStale now ttl = s.sweepExpired now ttl :=
    sweepStale_eq_sweepExpired htable hbegun hsmall
  have hlong : 9223372036854775808 + now < (ttl : Int) → s.sweepStale now ttl =
      (.ok s.locks.held.length, { s with locks := { s.locks with held := [] } }) :=
    fun hover => sweepStale_of_long htable hstamps hbegun hover httl
  refine ⟨⟨?_, ?_⟩, ?_, ?_⟩
  · intro hexact
    rcases Int.lt_or_le (9223372036854775808 + now) ttl with hover | hwithin
    · right
      apply List.eq_nil_iff_forall_not_mem.mpr
      intro l hl
      have hkept : l ∈ (s.sweepExpired now ttl).2.locks.held :=
        mem_sweepExpired.mpr ⟨hl, by have := hstamps l hl; omega⟩
      rw [← hexact, hlong hover] at hkept
      exact absurd hkept List.not_mem_nil
    · exact .inl hwithin
  · rintro (hwithin | hnone)
    · exact hright hwithin
    · rw [sweepStale_eq htable (Lock.isExpired now ttl) (by simp [hnone])]
      rfl
  · intro hwithin l hl hfresh
    rw [hright hwithin]
    exact mem_sweepExpired.mpr ⟨hl, hfresh⟩
  · intro hover
    refine ⟨?_, hlong hover⟩
    intro l hl
    have hstamp := (hstamps l hl).left
    rw [← Bool.not_eq_true, Lock.isExpired_iff]
    omega

/-- A lock that is stamped exactly the time to live ago stays, one second more and it goes. -/
theorem sweep_takes_expired_of_neighbours :
    let older : Lock := ⟨⟨Vector.replicate 32 1⟩, ⟨0⟩, 99⟩
    let newer : Lock := ⟨⟨Vector.replicate 32 2⟩, ⟨1⟩, 100⟩
    let s : Store := { Store.empty with locks := ⟨[older, newer], 2⟩ }
    s.sweepStale 1000 900 = s.sweepExpired 1000 900 ∧
      (s.sweepStale 1000 900).2.locks.held = [newer] := by
  intro older newer s
  have hexact := @sweep_takes_expired_iff 1000 900 s rfl (by decide) (by decide) (by decide)
    (by decide)
  have hsame := hexact.left.mpr (.inl (by decide))
  exact ⟨hsame, by rw [hsame]; decide⟩

/-- With the longest time to live of all a sweep takes a lock that has just been stamped. -/
theorem sweep_takes_fresh_lock :
    let l : Lock := ⟨⟨Vector.replicate 32 0⟩, ⟨0⟩, 1000⟩
    let s : Store := { Store.empty with locks := ⟨[l], 1⟩ }
    l.isExpired 1000 18446744073709551615 = false ∧
      (s.sweepStale 1000 18446744073709551615).1 = .ok 1 ∧
      (s.sweepStale 1000 18446744073709551615).2.locks.held = [] := by
  exact ⟨rfl, rfl, rfl⟩

end Store
end Translation
end Parley
