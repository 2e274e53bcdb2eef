import Mathlib.Data.List.Nodup
import Mathlib.Data.List.Perm.Subperm
import Parley.Translation.Lock

/-!
# Who holds which lock

A table of locks is seen here as the list of its holds, a key with the token that
owns it. Each operation is told by what it does to the holds. Stamps only matter
to a sweep, which takes some of the holds away.
-/

namespace Parley
namespace Translation

/-- A key and the token that owns its lock. -/
abbrev Hold :=
  ContentKey × Token

def Lock.hold (l : Lock) : Hold :=
  (l.key, l.token)

namespace Locks

variable {ls : Locks} {key : ContentKey} {token : Token} {now : Int}

def holds (ls : Locks) : List Hold :=
  ls.held.map Lock.hold

def Exclusive (ls : Locks) : Prop :=
  (ls.holds.map Prod.fst).Nodup

theorem isHeld_iff : ls.isHeld key = true ↔ key ∈ ls.holds.map Prod.fst := by
  simp [isHeld, holds, Lock.isFor, Lock.hold]

theorem owns_iff : ls.owns key token = true ↔ (key, token) ∈ ls.holds := by
  simp only [owns, holds, List.any_eq_true, List.mem_map, Lock.isOwnedBy, Lock.hold,
    Bool.and_eq_true, decide_eq_true_eq, Prod.mk.injEq]

/-!
# Operations
-/

theorem holds_take_of_free (h : ls.isHeld key = false) :
    (ls.take key now).2.holds = (key, ⟨ls.made⟩) :: ls.holds := by
  simp [take, h, holds, Lock.hold]

theorem holds_take_of_held (h : ls.isHeld key = true) :
    (ls.take key now).2.holds = ls.holds := by
  simp [take, h, holds]

theorem take_fst : (ls.take key now).1 = if ls.isHeld key then none else some ⟨ls.made⟩ := by
  rw [take]
  split <;> rfl

theorem holds_refresh : (ls.refresh key token now).2.holds = ls.holds := by
  simp only [refresh, holds, List.map_map]
  apply List.map_congr_left
  intro l _
  simp only [Function.comp_apply]
  split <;> rfl

theorem holds_release :
    (ls.release key token).holds = ls.holds.filter fun h => !(h = (key, token)) := by
  rw [release, holds, holds, List.filter_map]
  congr 1
  apply List.filter_congr
  intro l _
  simp only [Function.comp_apply, Lock.isOwnedBy, Lock.hold, Prod.mk.injEq, Bool.decide_and]

theorem holds_release_eq_erase (h : ls.holds.Nodup) :
    (ls.release key token).holds = ls.holds.erase (key, token) := by
  rw [holds_release, h.erase_eq_filter]
  apply List.filter_congr
  intro hold _
  rw [Bool.eq_iff_iff]
  simp

theorem holds_sweep_sublist (cutoff : Int) :
    (ls.sweep cutoff).2.holds.Sublist ls.holds :=
  List.filter_sublist.map Lock.hold

/-!
# Exclusion
-/

theorem exclusive_empty : empty.Exclusive :=
  List.nodup_nil

theorem Exclusive.of_sublist {ls' : Locks} (h : ls.Exclusive)
    (hsub : ls'.holds.Sublist ls.holds) : ls'.Exclusive :=
  List.Nodup.sublist (hsub.map Prod.fst) h

theorem Exclusive.take (h : ls.Exclusive) : (ls.take key now).2.Exclusive := by
  cases hheld : ls.isHeld key with
  | true =>
      rw [Exclusive, holds_take_of_held hheld]
      exact h
  | false =>
      rw [Exclusive, holds_take_of_free hheld, List.map_cons, List.nodup_cons]
      refine ⟨?_, h⟩
      intro hmem
      rw [isHeld_iff.mpr hmem] at hheld
      cases hheld

theorem Exclusive.refresh (h : ls.Exclusive) : (ls.refresh key token now).2.Exclusive := by
  rw [Exclusive, holds_refresh]
  exact h

theorem Exclusive.release (h : ls.Exclusive) : (ls.release key token).Exclusive :=
  h.of_sublist (by rw [holds_release]; exact List.filter_sublist)

theorem Exclusive.sweep (h : ls.Exclusive) (cutoff : Int) : (ls.sweep cutoff).2.Exclusive :=
  h.of_sublist (holds_sweep_sublist cutoff)

theorem Exclusive.lock_unique (h : ls.Exclusive) {l l' : Lock} (hl : l ∈ ls.held)
    (hl' : l' ∈ ls.held) (hkey : l.key = l'.key) : l = l' := by
  have hkeys : (ls.held.map Lock.key).Nodup := by
    rw [Exclusive, holds, List.map_map] at h
    exact h
  exact List.inj_on_of_nodup_map hkeys hl hl' hkey

theorem Exclusive.owner_unique (h : ls.Exclusive) {token' : Token}
    (howns : ls.owns key token = true) (howns' : ls.owns key token' = true) : token = token' := by
  have hhold := List.inj_on_of_nodup_map h (owns_iff.mp howns) (owns_iff.mp howns') rfl
  exact congrArg Prod.snd hhold

end Locks
end Translation
end Parley
