import Mathlib.Data.List.Nodup
import Parley.Proofs.Translation.Progress

/-!
# Single flight

As long as no sweep takes locks away, every job in flight holds the lock of its
key. A key has one lock, so it has at most one job in flight. From this follows
what the backend is spared: a job asks it only for what the cache lacks, and
nobody else can put that into the cache meanwhile.
-/

namespace Parley
namespace Translation

def Job.hold (j : Job) : Hold :=
  (j.key, j.token)

theorem subperm_map {α β : Type} (f : α → β) {l l' : List α} (h : l.Subperm l') :
    (l.map f).Subperm (l'.map f) := by
  rcases h with ⟨k, hperm, hsub⟩
  exact ⟨k.map f, hperm.map f, hsub.map f⟩

namespace Office

variable {o : Office}

/-!
# Every flight holds its lock
-/

structure IsLocked (o : Office) : Prop where
  whole : o.store.IsWhole
  exclusive : o.store.locks.Exclusive
  locked : (o.flights.map Job.hold).Subperm o.store.locks.holds

theorem isLocked_ofCache (cache : Cache) (capacity : Nat) (enabled : Bool) (slots : Nat) :
    (ofCache cache capacity enabled slots).IsLocked where
  whole := ⟨rfl, rfl⟩
  exclusive := Locks.exclusive_empty
  locked := List.nil_subperm

theorem Shift.locked {rs : List Request} {ls ls' : Locks} {fs fs' : List Job}
    (hshift : Shift rs ls fs ls' fs') (hexclusive : ls.Exclusive)
    (hlocked : (fs.map Job.hold).Subperm ls.holds) :
    ls'.Exclusive ∧ (fs'.map Job.hold).Subperm ls'.holds := by
  cases hshift with
  | idle hfs => exact ⟨hexclusive, (hfs.map Job.hold).subperm.trans hlocked⟩
  | refused key now hheld hfs =>
      refine ⟨hexclusive.take, ?_⟩
      rw [Locks.holds_take_of_held hheld]
      exact (hfs.map Job.hold).subperm.trans hlocked
  | taken r now _ hfree hfs =>
      refine ⟨hexclusive.take, ?_⟩
      rw [Locks.holds_take_of_free hfree]
      exact (hfs.map Job.hold).subperm.trans ((List.subperm_cons _).mpr hlocked)
  | stamped j now howns hfs =>
      refine ⟨hexclusive.refresh, ?_⟩
      rw [Locks.holds_refresh]
      exact (hfs.map Job.hold).subperm.trans hlocked
  | lost j now howns hfs =>
      have hmem : j.hold ∈ ls.holds :=
        hlocked.subset (List.mem_map_of_mem (hfs.mem_iff.mpr List.mem_cons_self))
      rw [Locks.owns_iff.mpr hmem] at howns
      cases howns
  | released j hfs =>
      refine ⟨hexclusive.release, ?_⟩
      have hcons : (j.hold :: fs'.map Job.hold).Subperm ls.holds :=
        (hfs.symm.map Job.hold).subperm.trans hlocked
      have hnodup : ls.holds.Nodup := List.Nodup.of_map Prod.fst hexclusive
      rw [Locks.holds_release_eq_erase hnodup]
      simpa [Job.hold] using hcons.erase j.hold

theorem IsLocked.move {w : Windows} (h : o.IsLocked) {m : Move} (hsweep : m.isSweep = false) :
    (o.move w m).IsLocked := by
  by_cases hshut : m = .shut
  · subst hshut
    have hstore : (o.move w .shut).store = o.store := o.store_shut
    rcases flights_shut o with ⟨dropped, hperm⟩
    have hlanded : o.shut.flights.Subperm o.flights :=
      (List.sublist_append_right dropped _).subperm.trans hperm.symm.subperm
    refine ⟨isWhole_move w h.whole .shut, by rw [hstore]; exact h.exclusive, ?_⟩
    rw [hstore]
    exact (subperm_map Job.hold hlanded).trans h.locked
  · have hshift := (shift_move w h.whole hsweep hshut).locked h.exclusive h.locked
    exact ⟨isWhole_move w h.whole m, hshift.left, hshift.right⟩

theorem IsLocked.keys_nodup (h : o.IsLocked) : (o.flights.map Job.key).Nodup := by
  have hkeys : ((o.flights.map Job.hold).map Prod.fst).Subperm
      (o.store.locks.holds.map Prod.fst) := subperm_map Prod.fst h.locked
  rw [List.map_map] at hkeys
  rcases hkeys with ⟨keys, hperm, hsub⟩
  exact hperm.nodup_iff.mp (h.exclusive.sublist hsub)

theorem IsLocked.countP_le_one (h : o.IsLocked) (key : ContentKey) :
    (o.flights.countP fun j => j.key = key) ≤ 1 := by
  have hcount : (o.flights.countP fun j => j.key = key) = (o.flights.map Job.key).count key := by
    rw [List.count_eq_countP, List.countP_map]
    apply List.countP_congr
    intro j _
    simp
  rw [hcount]
  exact List.nodup_iff_count_le_one.mp h.keys_nodup key

theorem IsLocked.task_unique (h : o.IsLocked) {t t' : Task} (ht : t ∈ o.tasks)
    (ht' : t' ∈ o.tasks) (hover : t.stage.isOver = false) (hover' : t'.stage.isOver = false)
    (hkey : t.job.key = t'.job.key) : t = t' := by
  have hflights : (o.tasks.filterMap Task.flight?).map Job.key =
      (o.tasks.filter fun t => !t.stage.isOver).map fun t => t.job.key := by
    induction o.tasks with
    | nil => rfl
    | cons t tasks ih =>
        cases hstage : t.stage.isOver with
        | true => simp [Task.flight?, hstage, ih]
        | false => simp [Task.flight?, hstage, ih]
  have hnodup : ((o.tasks.filter fun t => !t.stage.isOver).map fun t => t.job.key).Nodup := by
    rw [← hflights]
    exact h.keys_nodup.sublist ((List.sublist_append_right _ _).map Job.key)
  exact List.inj_on_of_nodup_map hnodup (List.mem_filter.mpr ⟨ht, by rw [hover]; rfl⟩)
    (List.mem_filter.mpr ⟨ht', by rw [hover']; rfl⟩) hkey

/-!
# What the backend is spared
-/

def AsksForMissing (o : Office) : Prop :=
  ∀ t ∈ o.tasks, ∀ replies, t.stage = .translating replies →
    o.store.cache.row? t.job.key = none

theorem asksForMissing_ofCache (cache : Cache) (capacity : Nat) (enabled : Bool) (slots : Nat) :
    (ofCache cache capacity enabled slots).AsksForMissing := by
  intro t ht
  cases ht

theorem asking_source {w : Windows} (hmissing : o.AsksForMissing) {o' : Office}
    (hfollows : Follows w o o') {t' : Task} (ht' : t' ∈ o'.tasks)
    {replies : List (Option Reply)} (hstage' : t'.stage = .translating replies) :
    ∃ t ∈ o.tasks, t'.job = t.job ∧ o.store.cache.row? t.job.key = none ∧
      (t.stage = .checking ∨ ∃ replies, t.stage = .translating replies) := by
  rcases hfollows t' ht' with hold | hnew | ⟨t, ht, hjob, hadvance⟩
  · exact ⟨t', hold, rfl, hmissing t' hold replies hstage', Or.inr ⟨replies, hstage'⟩⟩
  · rw [hstage'] at hnew
    cases hnew
  · refine ⟨t, ht, hjob, ?_⟩
    generalize t'.stage = stage' at hstage' hadvance
    cases hadvance with
    | same => exact ⟨hmissing t ht replies hstage', Or.inr ⟨replies, hstage'⟩⟩
    | apart hapart =>
        rw [hstage'] at hapart
        cases hapart
    | asked hstage hnone => exact ⟨hnone, Or.inl hstage⟩
    | heard hstage _ _ _ => exact ⟨hmissing t ht _ hstage, Or.inr ⟨_, hstage⟩⟩

theorem AsksForMissing.move {w : Windows} (hmissing : o.AsksForMissing) (h : o.IsLocked)
    (m : Move) : (o.move w m).AsksForMissing := by
  intro t' ht' replies hstage'
  rcases asking_source hmissing (follows_move w h.whole m) ht' hstage' with
    ⟨t, ht, hjob, hnone, hasking⟩
  rw [hjob]
  rcases store_move w h.whole m with
    ⟨locks, hstore⟩ | ⟨task, now, s, outputs, _, hs, hsaving, hstore⟩
  · rw [hstore]
    exact hnone
  · rw [hstore]
    have hover : t.stage.isOver = false := by
      rcases hasking with hstage | ⟨_, hstage⟩ <;> rw [hstage] <;> rfl
    -- A job that saves is past asking, so it is another, and of another key.
    have hkey : t.job.key ≠ s.job.key := by
      intro heq
      have hsame := h.task_unique ht (List.mem_of_getElem? hs) hover (by rw [hsaving]; rfl) heq
      rw [hsame, hsaving] at hasking
      rcases hasking with hstage | ⟨_, hstage⟩ <;> cases hstage
    change (o.store.cache.insert (s.job.entry w now outputs)).2.row? t.job.key = none
    rw [Cache.row?_insert_of_ne (by rw [Job.entry_key]; exact hkey)]
    exact hnone

def lettersFor (o : Office) (key : ContentKey) : List Letter :=
  o.posted.filter fun letter => letter.asker.key = key

theorem lettersFor_move {w : Windows} (hmissing : o.AsksForMissing) {key : ContentKey} {row : Row}
    (hrow : o.store.cache.row? key = some row) (m : Move) :
    (o.move w m).lettersFor key = o.lettersFor key := by
  rcases posted_move w o m with hsame | ⟨t, ht, replies, _, _, hstage, hposted⟩
  · rw [lettersFor, lettersFor, hsame]
  · have hkey : t.job.key ≠ key := by
      intro heq
      have hnone := hmissing t ht replies hstage
      rw [heq, hrow] at hnone
      cases hnone
    rw [lettersFor, lettersFor, hposted, List.filter_append]
    simp [Job.letter, hkey]

/-!
# Runs
-/

theorem spared_run {w : Windows} (h : o.IsLocked) (hmissing : o.AsksForMissing) {ms : List Move}
    (hms : ∀ m ∈ ms, m.isSweep = false) : (o.run w ms).IsLocked ∧ (o.run w ms).AsksForMissing :=
  run_induction (motive := fun o => o.IsLocked ∧ o.AsksForMissing) ⟨h, hmissing⟩
    fun _ ho m hm => ⟨ho.left.move (hms m hm), ho.right.move ho.left m⟩

theorem lettersFor_run {w : Windows} (h : o.IsLocked) (hmissing : o.AsksForMissing)
    {key : ContentKey} {row : Row} (hrow : o.store.cache.row? key = some row) {ms : List Move}
    (hms : ∀ m ∈ ms, m.isSweep = false) : (o.run w ms).lettersFor key = o.lettersFor key := by
  have hrun : ((o.run w ms).IsLocked ∧ (o.run w ms).AsksForMissing) ∧
      (o.run w ms).store.cache.row? key = some row ∧
      (o.run w ms).lettersFor key = o.lettersFor key := by
    apply run_induction (motive := fun o' => (o'.IsLocked ∧ o'.AsksForMissing) ∧
      o'.store.cache.row? key = some row ∧ o'.lettersFor key = o.lettersFor key)
    · exact ⟨⟨h, hmissing⟩, hrow, rfl⟩
    · rintro o' ⟨⟨hlocked', hmissing'⟩, hrow', hletters'⟩ m hm
      refine ⟨⟨hlocked'.move (hms m hm), hmissing'.move hlocked' m⟩, ?_, ?_⟩
      · exact row?_move hlocked'.whole hrow' m
      · exact (lettersFor_move hmissing' hrow' m).trans hletters'
  exact hrun.right.right

/-- Without sweeps no key ever has two jobs in flight, and what is in the cache is not asked for
again, whatever was in it to begin with. -/
theorem single_flight (w : Windows) (cache : Cache) (capacity : Nat) (enabled : Bool)
    (slots : Nat) (ms more : List Move) (hms : ∀ m ∈ ms, m.isSweep = false)
    (hmore : ∀ m ∈ more, m.isSweep = false) (key : ContentKey) :
    (((ofCache cache capacity enabled slots).run w ms).flights.countP fun j => j.key = key) ≤ 1 ∧
      ((((ofCache cache capacity enabled slots).run w ms).store.cache.row? key).isSome = true →
        (((ofCache cache capacity enabled slots).run w ms).run w more).lettersFor key =
          ((ofCache cache capacity enabled slots).run w ms).lettersFor key) := by
  rcases spared_run (w := w) (isLocked_ofCache cache capacity enabled slots)
    (asksForMissing_ofCache cache capacity enabled slots) hms with ⟨hlocked, hmissing⟩
  refine ⟨hlocked.countP_le_one key, ?_⟩
  intro hsome
  rcases Option.isSome_iff_exists.mp hsome with ⟨row, hrow⟩
  exact lettersFor_run hlocked hmissing hrow hmore

/-- One text is asked for twice, translated once, and asked for again. -/
theorem single_flight_of_three_requests :
    let r : Request := ⟨"Hi", "de", .plain, .summary⟩
    let ms : List Move :=
      [.come r, .proceed 0 5, .come r, .proceed 1 5, .proceed 0 5, .proceed 0 5, .proceed 1 5,
        .take, .start, .call 0 6, .call 0 6, .post 0 0, .hear 0 0 (.ok "Hallo"), .call 0 7]
    let more : List Move := [.come r, .proceed 2 8, .call 0 9]
    (((ofCache .empty 1 true 1).run {} ms).store.cache.row? r.key).isSome = true ∧
      (((ofCache .empty 1 true 1).run {} ms).flights.countP fun j => j.key = r.key) ≤ 1 ∧
      (((ofCache .empty 1 true 1).run {} ms).run {} more).lettersFor r.key =
        ((ofCache .empty 1 true 1).run {} ms).lettersFor r.key := by
  intro r ms more
  have hsome : (((ofCache .empty 1 true 1).run {} ms).store.cache.row? r.key).isSome = true := by
    decide +kernel
  have hflight := single_flight {} .empty 1 true 1 ms more (by decide) (by decide) r.key
  exact ⟨hsome, hflight.left, hflight.right hsome⟩

end Office
end Translation
end Parley
