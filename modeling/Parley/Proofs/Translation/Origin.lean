import Parley.Proofs.Translation.Watch

/-!
# What everything is there for

Whatever the office does, it does for a request that came: no lock is taken, no job
is queued or started, no letter is written and no row is added that is not for one of
them. This needs no calls that succeed, as a call that fails does nothing.
-/

namespace Parley
namespace Translation

variable {P : Request → Prop} {w : Windows}

/-!
# Stores
-/

structure Store.AddsFor (w : Windows) (P : Request → Prop) (s s' : Store) : Prop where
  holds : ∀ hold ∈ s'.locks.holds, hold ∈ s.locks.holds ∨ ∃ r, P r ∧ hold.1 = r.key
  rows : ∀ row ∈ s'.cache.rows, row ∈ s.cache.rows ∨
    ∃ (j : Job) (now : Int) (outputs : List String), P j.request ∧
      row = Row.ofEntry (j.entry w now outputs)

namespace Store

variable {s s' s'' : Store} {r : Request} {j : Job}

theorem AddsFor.refl (s : Store) : AddsFor w P s s :=
  ⟨fun _ => Or.inl, fun _ => Or.inl⟩

theorem AddsFor.trans (h : AddsFor w P s s') (h' : AddsFor w P s' s'') : AddsFor w P s s'' where
  holds hold hmem := by
    rcases h'.holds hold hmem with hold' | hnew
    · exact h.holds hold hold'
    · exact Or.inr hnew
  rows row hmem := by
    rcases h'.rows row hmem with hrow | hnew
    · exact h.rows row hrow
    · exact Or.inr hnew

theorem AddsFor.of_subset (hholds : s'.locks.holds ⊆ s.locks.holds)
    (hrows : s'.cache.rows ⊆ s.cache.rows) : AddsFor w P s s' :=
  ⟨fun _ hmem => Or.inl (hholds hmem), fun _ hmem => Or.inl (hrows hmem)⟩

theorem addsFor_tryLock (s : Store) (hr : P r) (now : Int) :
    AddsFor w P s (s.tryLock r.key now).2 := by
  rw [tryLock]
  split
  · refine ⟨?_, fun _ => Or.inl⟩
    intro hold hmem
    dsimp only at hmem
    cases hheld : s.locks.isHeld r.key with
    | true =>
        rw [Locks.holds_take_of_held hheld] at hmem
        exact Or.inl hmem
    | false =>
        rw [Locks.holds_take_of_free hheld] at hmem
        rcases List.mem_cons.mp hmem with rfl | hold'
        · exact Or.inr ⟨r, hr, rfl⟩
        · exact Or.inl hold'
  · exact .refl s

theorem addsFor_refresh (s : Store) (key : ContentKey) (token : Token) (now : Int) :
    AddsFor w P s (s.refresh key token now).2 := by
  rw [refresh]
  split
  · refine .of_subset ?_ (List.Subset.refl _)
    dsimp only
    rw [Locks.holds_refresh]
    exact List.Subset.refl _
  · exact .refl s

theorem addsFor_unlock (s : Store) (key : ContentKey) (token : Token) :
    AddsFor w P s (s.unlock key token).2 := by
  rw [unlock]
  split
  · refine .of_subset ?_ (List.Subset.refl _)
    dsimp only
    rw [Locks.holds_release]
    exact List.filter_subset_self _
  · exact .refl s

theorem addsFor_sweep (s : Store) (cutoff : Int) : AddsFor w P s (s.sweep cutoff).2 := by
  rw [sweep]
  split
  · exact .of_subset (Locks.holds_sweep_sublist cutoff).subset (List.Subset.refl _)
  · exact .refl s

theorem addsFor_insert (s : Store) (hj : P j.request) (now : Int) (outputs : List String) :
    AddsFor w P s (s.insert (j.entry w now outputs)).2 := by
  rw [insert]
  split
  · refine ⟨fun _ => Or.inl, ?_⟩
    intro row hmem
    dsimp only [Cache.insert, Cache.addRow] at hmem
    split at hmem
    · exact Or.inl hmem
    · rcases List.mem_append.mp hmem with hrow | hnew
      · exact Or.inl hrow
      · exact Or.inr ⟨j, now, outputs, hj, List.mem_singleton.mp hnew⟩
  · exact .refl s

theorem addsFor_lose (s : Store) (t : Table) : AddsFor w P s (s.lose t) := by
  cases t with
  | cache => exact .of_subset (List.Subset.refl _) (List.nil_subset _)
  | locks => exact .of_subset (List.nil_subset _) (List.Subset.refl _)

end Store

/-!
# Steps
-/

theorem Asking.addsFor_step {r : Request} (hr : P r) (now : Int) (stage : Asking) (d : Desk) :
    Store.AddsFor w P d.store (step now r stage d).2.store := by
  cases stage with
  | looking =>
      rw [step, look_store]
      exact .refl d.store
  | locking =>
      rw [step, lock_store]
      exact Store.addsFor_tryLock d.store hr now
  | queueing token =>
      rw [step, queue_store]
      exact .refl d.store
  | returning token => exact Store.addsFor_unlock d.store r.key token
  | answered answer => exact .refl d.store

theorem Asking.jobs_step (now : Int) (r : Request) (stage : Asking) (d : Desk) {j : Job}
    (hj : j ∈ (step now r stage d).2.queue.jobs) : j ∈ d.queue.jobs ∨ j.request = r := by
  rcases queue_step now r stage d with hqueue | ⟨_, token, hqueue⟩
  · rw [hqueue] at hj
    exact Or.inl hj
  · rw [hqueue] at hj
    rcases List.mem_append.mp hj with hold | hnew
    · exact Or.inl hold
    · exact Or.inr (congrArg Job.request (List.mem_singleton.mp hnew))

theorem Stage.addsFor_call {j : Job} (hj : P j.request) {stage : Stage} {now : Int} {s s' : Store}
    {news : News} (hcall : stage.call (Store.access now) w now j s = some (news, s')) :
    Store.AddsFor w P s s' := by
  dsimp only [call, Store.access] at hcall
  cases stage with
  | starting =>
      cases hcall
      exact Store.addsFor_refresh s j.key j.token now
  | checking =>
      cases hcall
      exact .refl s
  | saving outputs =>
      cases hcall
      exact Store.addsFor_insert s hj now outputs
  | releasing outcome =>
      cases hcall
      exact Store.addsFor_unlock s j.key j.token
  | translating replies => cases hcall
  | ended outcome => cases hcall

/-!
# The office
-/

namespace Office

variable {s : Store} {o : Office}

/-- Everything that is in the office, and was not in the store to begin with, is there for such
requests; each letter asks for a chunk of a text that is to be translated, in its locale. -/
structure WorksFor (w : Windows) (P : Request → Prop) (s : Store) (o : Office) : Prop where
  errands : ∀ e ∈ o.errands, P e.request
  queue : ∀ j ∈ o.desk.queue.jobs, P j.request
  hand : ∀ j ∈ o.worker.inHand, P j.request
  tasks : ∀ t ∈ o.tasks, P t.job.request
  letters : ∀ letter ∈ o.posted, P letter.asker.request ∧
    ∃ number chunk, (letter.asker.document w).chunks[number]? = some chunk ∧
      letter = letter.asker.letter number chunk
  store : Store.AddsFor w P s o.store

theorem worksFor_ofStore (s : Store) (capacity : Nat) (enabled : Bool) (slots : Nat) :
    (ofStore s capacity enabled slots).WorksFor w P s where
  errands e he := by cases he
  queue j hj := by cases hj
  hand j hj := by cases hj
  tasks t ht := by cases ht
  letters letter hletter := by cases hletter
  store := .refl s

theorem WorksFor.tell (h : o.WorksFor w P s) {i : Nat} {t : Task} (ht : o.tasks[i]? = some t)
    (news : News) {store : Store} (hstore : Store.AddsFor w P o.store store) :
    ((o.withStore store).tell w i t news).WorksFor w P s where
  errands := h.errands
  queue := h.queue
  hand j hj := by
    apply h.hand j
    dsimp only [Office.tell] at hj
    split at hj <;> exact hj
  tasks t' ht' := by
    rcases List.mem_or_eq_of_mem_set ht' with hold | rfl
    · exact h.tasks t' hold
    · exact h.tasks t (List.mem_of_getElem? ht)
  letters := h.letters
  store := h.store.trans hstore

theorem WorksFor.move (h : o.WorksFor w P s) {m : Move} (hm : ∀ r, m.request? = some r → P r) :
    (o.move w m).WorksFor w P s := by
  cases m with
  | come r =>
      refine { h with errands := ?_ }
      intro e he
      rcases List.mem_append.mp he with hold | hnew
      · exact h.errands e hold
      · rw [List.mem_singleton.mp hnew]
        exact hm r rfl
  | proceed errand now =>
      rcases o.proceed_eq errand now with hsame | ⟨e, he, heq⟩
      · rw [Office.move, hsame]
        exact h
      · have hr : P e.request := h.errands e (List.mem_of_getElem? he)
        rw [Office.move, heq]
        refine { h with errands := ?_, queue := ?_, store := ?_ }
        · intro e' he'
          rcases List.mem_or_eq_of_mem_set he' with hold | rfl
          · exact h.errands e' hold
          · exact hr
        · intro j hj
          rcases Asking.jobs_step now e.request e.stage o.desk hj with hold | hown
          · exact h.queue j hold
          · rw [hown]
            exact hr
        · exact h.store.trans (Asking.addsFor_step hr now e.stage o.desk)
  | take =>
      rcases o.take_eq with hsame | ⟨job, rest, hjobs, _, heq⟩
      · rw [Office.move, hsame]
        exact h
      · rw [Office.move, heq]
        refine { h with queue := ?_, hand := ?_ }
        · intro j hj
          exact h.queue j (hjobs ▸ List.mem_cons_of_mem job hj)
        · intro j hj
          cases hj
          exact h.queue job (hjobs ▸ List.mem_cons_self)
  | start =>
      rcases o.start_eq with hsame | ⟨job, hhand, heq⟩
      · rw [Office.move, hsame]
        exact h
      · rw [Office.move, heq]
        refine { h with hand := ?_, tasks := ?_ }
        · intro j hj
          cases hj
        · intro t ht
          rcases List.mem_append.mp ht with hold | hnew
          · exact h.tasks t hold
          · rw [List.mem_singleton.mp hnew]
            exact h.hand job hhand
  | shut =>
      rw [Office.move, shut]
      split
      · exact { h with queue := fun j hj => by cases hj }
      · exact h
  | call task now =>
      rcases o.call_eq w task now with hsame | ⟨t, news, store, ht, hcall, heq⟩
      · rw [Office.move, hsame]
        exact h
      · rw [Office.move, heq]
        exact h.tell ht news (Stage.addsFor_call (h.tasks t (List.mem_of_getElem? ht)) hcall)
  | restamp task now =>
      rcases o.restamp_eq w task now with hsame | ⟨t, ht, _, heq⟩
      · rw [Office.move, hsame]
        exact h
      · rw [Office.move, heq]
        exact h.tell ht _ (Store.addsFor_refresh o.store t.job.key t.job.token now)
  | post task chunk =>
      rcases o.post_eq w task chunk with hsame | ⟨t, _, text, ht, _, htext, heq⟩
      · rw [Office.move, hsame]
        exact h
      · have hjob : P t.job.request := h.tasks t (List.mem_of_getElem? ht)
        rw [Office.move, heq]
        refine { h with tasks := ?_, letters := ?_ }
        · intro t' ht'
          rcases List.mem_or_eq_of_mem_set ht' with hold | rfl
          · exact h.tasks t' hold
          · exact hjob
        · intro letter hletter
          rcases List.mem_append.mp hletter with hold | hnew
          · exact h.letters letter hold
          · rw [List.mem_singleton.mp hnew]
            exact ⟨hjob, chunk, text, htext, rfl⟩
  | hear task chunk reply =>
      rcases o.hear_eq w task chunk reply with hsame | ⟨t, _, text, ht, _, _, _, _, heq⟩
      · rw [Office.move, hsame]
        exact h
      · rw [Office.move, heq]
        have hrecorded : ({ o with answers := o.answers ++ [(t.job.letter chunk text, reply)] } :
            Office).WorksFor w P s := { h with }
        exact hrecorded.tell ht _ (.refl o.store)
  | sweep cutoff => exact { h with store := h.store.trans (Store.addsFor_sweep o.store cutoff) }

end Office
end Translation
end Parley
