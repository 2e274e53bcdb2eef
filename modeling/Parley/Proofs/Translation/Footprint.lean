import Parley.Proofs.Translation.Maps

/-!
# Footprints on the locks

Whoever shares a store with others is judged by what each of its own steps found and
left there. A step on one's own lock leaves all other locks as they were, stamps
included, and a lock that is gone with its token comes back by nobody's call.
-/

namespace Parley
namespace Translation

/-- A step by what it found and what it left. -/
structure Footprint (σ : Type) where
  before : σ
  after : σ

namespace Locks

variable {ls ls' : Locks} {key : ContentKey} {token : Token} {own own' : List Hold}

/-- The locks of all others than these owners. -/
def besides (ls : Locks) (own : List Hold) : List Lock :=
  ls.held.filter fun l => l.hold ∉ own

theorem besides_take (hown : (key, ⟨ls.made⟩) ∈ own) (now : Int) :
    (ls.take key now).2.besides own = ls.besides own := by
  rw [take]
  split
  · rfl
  · exact List.filter_cons_of_neg (by simp [Lock.hold, hown])

theorem besides_refresh (hown : (key, token) ∈ own) (now : Int) :
    (ls.refresh key token now).2.besides own = ls.besides own := by
  rw [besides, besides, refresh]
  induction ls.held with
  | nil => rfl
  | cons l held ih =>
      rw [List.map_cons]
      cases howned : l.isOwnedBy key token with
      | true =>
          have hhold : l.hold ∈ own := by
            have hsame : l.key = key ∧ l.token = token := by simpa [Lock.isOwnedBy] using howned
            rw [Lock.hold, hsame.left, hsame.right]
            exact hown
          have hstamped : Lock.hold { l with stamp := now } ∈ own := hhold
          rw [if_pos rfl, List.filter_cons_of_neg (by simp [hstamped]), ih,
            List.filter_cons_of_neg (by simp [hhold])]
      | false =>
          rw [if_neg Bool.false_ne_true, List.filter_cons, List.filter_cons, ih]

theorem besides_release (hown : (key, token) ∈ own) :
    (ls.release key token).besides own = ls.besides own := by
  rw [besides, besides, release, List.filter_filter]
  apply List.filter_congr
  intro l _
  by_cases hhold : l.hold = (key, token)
  · simp [hhold, hown]
  · have howned : l.isOwnedBy key token = false := by
      rw [Lock.hold, Prod.mk.injEq] at hhold
      simpa [Lock.isOwnedBy] using hhold
    rw [howned, Bool.not_false, Bool.and_true]

theorem besides_mono (h : ls.besides own = ls'.besides own) (hsub : own ⊆ own') :
    ls.besides own' = ls'.besides own' := by
  have hrefine : ∀ ls : Locks,
      ls.besides own' = (ls.besides own).filter fun l => l.hold ∉ own' := by
    intro ls
    rw [besides, besides, List.filter_filter]
    apply List.filter_congr
    intro l _
    by_cases hmem : l.hold ∈ own'
    · simp [hmem]
    · have hnot : l.hold ∉ own := fun h => hmem (hsub h)
      simp [hmem, hnot]
  rw [hrefine ls, hrefine ls', h]

/-!
# Locks that are new
-/

def added (ls ls' : Locks) : List Hold :=
  ls'.holds.filter fun h => h ∉ ls.holds

theorem added_eq_nil (h : ls'.holds ⊆ ls.holds) : ls.added ls' = [] := by
  apply List.filter_eq_nil_iff.mpr
  intro hold hmem
  simp [h hmem]

theorem added_take (hfree : ls.isHeld key = false) (now : Int) :
    ls.added (ls.take key now).2 = [(key, ⟨ls.made⟩)] := by
  have hnew : (key, ⟨ls.made⟩) ∉ ls.holds := by
    intro hmem
    rw [isHeld_iff.mpr (List.mem_map_of_mem hmem)] at hfree
    cases hfree
  have hold : ls.added ls = [] := added_eq_nil (List.Subset.refl _)
  rw [added] at hold
  rw [added, holds_take_of_free hfree, List.filter_cons_of_pos (by simp [hnew]), hold]

/-!
# Locks that are gone
-/

/-- The token was made, and its lock of this key is not there. -/
structure IsGone (ls : Locks) (hold : Hold) : Prop where
  made : hold.2.number < ls.made
  absent : hold ∉ ls.holds

theorem IsGone.after {hold : Hold} (h : ls.IsGone hold) (c : LockCall) :
    (ls.after c).IsGone hold := by
  refine ⟨Nat.lt_of_lt_of_le h.made (made_le_after ls c), ?_⟩
  intro hmem
  rcases mem_holds_after hmem with hheld | ⟨hnumber, _⟩
  · exact h.absent hheld
  · exact Nat.ne_of_lt h.made hnumber

theorem isGone_release (hmade : token.number < ls.made) :
    (ls.release key token).IsGone (key, token) := by
  refine ⟨hmade, ?_⟩
  rw [holds_release, List.mem_filter]
  simp

end Locks

/-!
# Calls of others
-/

namespace Store

variable {s : Store}

theorem agreeOn_insert (s : Store) (e : Entry) : AgreeOn .locks (s.call (.insert e)).2 s :=
  (agreeOn_refl .locks s).call_left nofun

theorem locks_call (s : Store) (c : StoreCall) :
    (s.call c).2.locks = s.locks ∨ ∃ lc, (s.call c).2.locks = s.locks.after lc := by
  cases c with
  | get | count => exact Or.inl rfl
  | insert e => exact Or.inl (s.agreeOn_insert e).left
  | lock lc =>
      rw [call_lock]
      split
      · exact Or.inr ⟨lc, rfl⟩
      · exact Or.inl rfl

theorem hasLocks_call (s : Store) (c : StoreCall) : (s.call c).2.hasLocks = s.hasLocks := by
  cases c with
  | get | count => rfl
  | insert e => exact (s.agreeOn_insert e).right
  | lock lc =>
      rw [call_lock]
      split <;> rfl

theorem made_le_call (s : Store) (c : StoreCall) : s.locks.made ≤ (s.call c).2.locks.made := by
  rcases s.locks_call c with hsame | ⟨lc, hafter⟩
  · rw [hsame]
  · rw [hafter]
    exact Locks.made_le_after s.locks lc

theorem isGone_call {hold : Hold} (h : s.locks.IsGone hold) (c : StoreCall) :
    (s.call c).2.locks.IsGone hold := by
  rcases s.locks_call c with hsame | ⟨lc, hafter⟩
  · rw [hsame]
    exact h
  · rw [hafter]
    exact h.after lc

end Store
end Translation
end Parley
