import Parley.Proofs.Translation.Progress

/-!
# Entries are whole translations

Whatever the order in which chunks come back, whatever fails, and even if sweeps
let two jobs of one key run side by side: what a job has in its hands are replies
to its own chunks, each in its place, and it writes an entry only when it has them
all. The first entry of a key stays, and answers every request that comes after.
-/

namespace Parley
namespace Translation

/-!
# Verdicts
-/

theorem inOrder_eq_whole {replies : List (Option Reply)} {outputs : List String}
    (h : inOrder replies = .whole outputs) :
    replies = outputs.map fun output => some (.ok output) := by
  induction replies generalizing outputs with
  | nil =>
      cases h
      rfl
  | cons reply rest ih =>
      rcases reply with _ | _ | output
      · cases h
      · cases h
      · rw [inOrder] at h
        split at h
        · rename_i more hmore
          cases h
          rw [List.map_cons, ← ih hmore]
        · rename_i hother
          exact absurd h (hother outputs)

theorem verdict_eq_whole {replies : List (Option Reply)} {outputs : List String}
    (h : verdict replies = .whole outputs) :
    replies = outputs.map fun output => some (.ok output) := by
  rw [verdict] at h
  split at h
  · cases h
  · exact inOrder_eq_whole h

/-!
# What jobs have in their hands
-/

variable {w : Windows} {answers : List (Letter × Reply)} {j : Job}

/-- The job has a place for the reply to each of its chunks, and every translation in it is the
recorded reply to the chunk in that place. -/
structure Job.Collects (w : Windows) (answers : List (Letter × Reply)) (j : Job)
    (replies : List (Option Reply)) : Prop where
  length_eq : replies.length = (j.document w).chunks.length
  recorded : ∀ i chunk output, (j.document w).chunks[i]? = some chunk →
    replies[i]? = some (some (.ok output)) → (j.letter i chunk, .ok output) ∈ answers

structure Job.HasAll (w : Windows) (answers : List (Letter × Reply)) (j : Job)
    (outputs : List String) : Prop where
  length_eq : outputs.length = (j.document w).chunks.length
  recorded : ∀ i chunk output, (j.document w).chunks[i]? = some chunk →
    outputs[i]? = some output → (j.letter i chunk, .ok output) ∈ answers

def Stage.IsFaithful (w : Windows) (answers : List (Letter × Reply)) (j : Job) : Stage → Prop
  | .translating replies => j.Collects w answers replies
  | .saving outputs => j.HasAll w answers outputs
  | _ => True

theorem Job.Collects.replicate :
    j.Collects w answers (List.replicate (j.document w).chunks.length none) where
  length_eq := List.length_replicate
  recorded i chunk output _ hreply := by
    rw [List.getElem?_replicate] at hreply
    split at hreply <;> cases hreply

theorem Job.Collects.mono {replies : List (Option Reply)} {answers' : List (Letter × Reply)}
    (h : j.Collects w answers replies) (hsub : answers ⊆ answers') :
    j.Collects w answers' replies where
  length_eq := h.length_eq
  recorded i chunk output hchunk hreply := hsub (h.recorded i chunk output hchunk hreply)

theorem Job.HasAll.mono {outputs : List String} {answers' : List (Letter × Reply)}
    (h : j.HasAll w answers outputs) (hsub : answers ⊆ answers') :
    j.HasAll w answers' outputs where
  length_eq := h.length_eq
  recorded i chunk output hchunk houtput := hsub (h.recorded i chunk output hchunk houtput)

theorem Job.Collects.set {replies : List (Option Reply)} {number : Nat} {text : String}
    {reply : Reply} (h : j.Collects w answers replies)
    (htext : (j.document w).chunks[number]? = some text)
    (hrecord : (j.letter number text, reply) ∈ answers) :
    j.Collects w answers (replies.set number (some reply)) where
  length_eq := by rw [List.length_set, h.length_eq]
  recorded i chunk output hchunk hreply := by
    rw [List.getElem?_set] at hreply
    split at hreply
    · rename_i hi
      subst hi
      split at hreply
      · cases hreply
        rw [htext] at hchunk
        cases hchunk
        exact hrecord
      · cases hreply
    · exact h.recorded i chunk output hchunk hreply

theorem Job.Collects.hasAll {replies : List (Option Reply)} {outputs : List String}
    (h : j.Collects w answers replies) (hverdict : verdict replies = .whole outputs) :
    j.HasAll w answers outputs := by
  have hreplies := verdict_eq_whole hverdict
  subst hreplies
  constructor
  · rw [← h.length_eq, List.length_map]
  · intro i chunk output hchunk houtput
    apply h.recorded i chunk output hchunk
    rw [List.getElem?_map, houtput]
    rfl

namespace Stage

theorem isFaithful_ofVerdict {replies : List (Option Reply)} (h : j.Collects w answers replies) :
    (ofVerdict replies).IsFaithful w answers j := by
  cases hverdict : verdict replies with
  | waiting =>
      rw [ofVerdict, hverdict]
      exact h
  | failed =>
      rw [ofVerdict, hverdict]
      exact trivial
  | whole outputs =>
      rw [ofVerdict, hverdict]
      exact h.hasAll hverdict

theorem isFaithful_of_not_usesBackend {stage : Stage} (h : stage.usesBackend = false) :
    stage.IsFaithful w answers j := by
  cases stage with
  | starting | checking | releasing | ended => exact trivial
  | translating | saving => cases h

theorem IsFaithful.mono {stage : Stage} {answers' : List (Letter × Reply)}
    (h : stage.IsFaithful w answers j) (hsub : answers ⊆ answers') :
    stage.IsFaithful w answers' j := by
  cases stage with
  | starting | checking | releasing | ended => exact trivial
  | translating replies => exact Job.Collects.mono h hsub
  | saving outputs => exact Job.HasAll.mono h hsub

end Stage

namespace Office

variable {o : Office}

theorem Advance.isFaithful {o' : Office} {t : Task} {stage : Stage}
    (hadvance : Advance w o o' t stage) (h : t.stage.IsFaithful w o.answers t.job)
    (hsub : o.answers ⊆ o'.answers) : stage.IsFaithful w o'.answers t.job := by
  cases hadvance with
  | same => exact h.mono hsub
  | apart hapart => exact Stage.isFaithful_of_not_usesBackend hapart
  | asked _ _ => exact Stage.isFaithful_ofVerdict Job.Collects.replicate
  | heard hstage _ htext hrecord =>
      rw [hstage] at h
      exact Stage.isFaithful_ofVerdict ((Job.Collects.mono h hsub).set htext hrecord)

/-!
# Where jobs come from
-/

theorem Shift.came {rs : List Request} {ls ls' : Locks} {fs fs' : List Job}
    (hshift : Shift rs ls fs ls' fs') (h : ∀ j ∈ fs, j.request ∈ rs) :
    ∀ j ∈ fs', j.request ∈ rs := by
  intro j hj
  cases hshift with
  | idle hfs => exact h j (hfs.mem_iff.mp hj)
  | refused key now hheld hfs => exact h j (hfs.mem_iff.mp hj)
  | taken r now hr hfree hfs =>
      rcases List.mem_cons.mp (hfs.mem_iff.mp hj) with rfl | hold
      · exact hr
      · exact h j hold
  | stamped j' now howns hfs => exact h j (hfs.mem_iff.mp hj)
  | lost j' now howns hfs => exact h j (hfs.mem_iff.mpr (List.mem_cons_of_mem j' hj))
  | released j' hfs => exact h j (hfs.mem_iff.mpr (List.mem_cons_of_mem j' hj))

theorem requests_subset_move (w : Windows) (o : Office) (m : Move) :
    o.requests ⊆ (o.move w m).requests := by
  rw [requests_move]
  exact List.subset_append_left _ _

theorem came_move (hwhole : o.store.IsWhole) (h : ∀ j ∈ o.flights, j.request ∈ o.requests)
    (m : Move) : ∀ j ∈ (o.move w m).flights, j.request ∈ (o.move w m).requests := by
  intro j hj
  apply requests_subset_move w o m
  cases hsweep : m.isSweep with
  | true =>
      cases m with
      | sweep cutoff => exact h j hj
      | _ => cases hsweep
  | false =>
      by_cases hshut : m = .shut
      · subst hshut
        rcases flights_shut o with ⟨dropped, hperm⟩
        exact h j (hperm.mem_iff.mpr (List.mem_append_right dropped hj))
      · exact (shift_move w hwhole hsweep hshut).came h j hj

end Office

/-!
# What entries say
-/

/-- The entry is what one of the requests asks for, put together from one translation of each of its
chunks, all of them made for one job. -/
def IsTranslation (w : Windows) (requests : List Request) (answers : List (Letter × Reply))
    (e : Entry) : Prop :=
  ∃ (j : Job) (outputs : List String), j.request ∈ requests ∧ j.HasAll w answers outputs ∧
    e.key = j.request.key ∧ e.content = (j.document w).reassemble outputs ∧
    e.locale = j.request.locale ∧ e.markup = j.request.markup ∧ e.part = j.request.part

theorem IsTranslation.mono {requests requests' : List Request}
    {answers' : List (Letter × Reply)} {e : Entry} (h : IsTranslation w requests answers e)
    (hrequests : requests ⊆ requests') (hanswers : answers ⊆ answers') :
    IsTranslation w requests' answers' e := by
  rcases h with ⟨j, outputs, hcame, hall, hsays⟩
  exact ⟨j, outputs, hrequests hcame, hall.mono hanswers, hsays⟩

theorem Store.get_eq_some_iff {s : Store} (h : s.IsWhole) {key : ContentKey} {e : Entry} :
    s.get key = .ok (some e) ↔ ∃ row, s.cache.row? key = some row ∧ row.toEntry = .ok e := by
  rw [get_of_isWhole h, Cache.get]
  cases hrow : s.cache.row? key with
  | none => simp
  | some row =>
      cases hentry : row.toEntry with
      | error error => simp [hentry, Except.map]
      | ok entry => simp [hentry, Except.map]

namespace Office

variable {o : Office}

theorem get_run (h : o.store.IsWhole) {key : ContentKey} {e : Entry}
    (hget : o.store.get key = .ok (some e)) (ms : List Move) :
    (o.run w ms).store.get key = .ok (some e) := by
  rcases (Store.get_eq_some_iff h).mp hget with ⟨row, hrow, hentry⟩
  rcases row?_run (w := w) h hrow ms with ⟨hwhole, hkept⟩
  exact (Store.get_eq_some_iff hwhole).mpr ⟨row, hkept, hentry⟩

structure IsTraced (w : Windows) (o : Office) : Prop where
  whole : o.store.IsWhole
  came : ∀ j ∈ o.flights, j.request ∈ o.requests
  faithful : ∀ t ∈ o.tasks, t.stage.IsFaithful w o.answers t.job
  rows : ∀ key row, o.store.cache.row? key = some row →
    ∃ e, row = Row.ofEntry e ∧ e.key = key ∧ IsTranslation w o.requests o.answers e

theorem isTraced_ofCache (w : Windows) (capacity : Nat) (enabled : Bool) (slots : Nat) :
    (ofCache .empty capacity enabled slots).IsTraced w where
  whole := ⟨rfl, rfl⟩
  came _ hj := by cases hj
  faithful _ ht := by cases ht
  rows _ _ hrow := by cases hrow

theorem IsTraced.isTranslation_entry (h : o.IsTraced w) {t : Task} (ht : t ∈ o.tasks)
    {outputs : List String} (hstage : t.stage = .saving outputs) (now : Int) :
    IsTranslation w o.requests o.answers (t.job.entry w now outputs) := by
  have hflight : t.job ∈ o.flights := by
    apply List.mem_append_right
    exact List.mem_filterMap.mpr ⟨t, ht, Task.flight?_of_not_isOver (by rw [hstage]; rfl)⟩
  have hall := h.faithful t ht
  rw [hstage] at hall
  exact ⟨t.job, outputs, h.came t.job hflight, hall, rfl, rfl, rfl, rfl, rfl⟩

theorem IsTraced.move (h : o.IsTraced w) (m : Move) : (o.move w m).IsTraced w := by
  have hrequests := requests_subset_move w o m
  have hanswers := answers_subset_move w o m
  refine ⟨isWhole_move w h.whole m, came_move h.whole h.came m, ?_, ?_⟩
  · intro t' ht'
    rcases follows_move w h.whole m t' ht' with hold | hnew | ⟨t, ht, hjob, hadvance⟩
    · exact (h.faithful t' hold).mono hanswers
    · rw [hnew]
      exact trivial
    · rw [hjob]
      exact hadvance.isFaithful (h.faithful t ht) hanswers
  · intro key row hrow
    have hold : o.store.cache.row? key = some row →
        ∃ e, row = Row.ofEntry e ∧ e.key = key ∧
          IsTranslation w (o.move w m).requests (o.move w m).answers e := by
      intro hkept
      rcases h.rows key row hkept with ⟨e, hentry, hkey, hsays⟩
      exact ⟨e, hentry, hkey, hsays.mono hrequests hanswers⟩
    -- Either the row was there, or a job that saves has just written it.
    rcases store_move w h.whole m with
      ⟨locks, hstore⟩ | ⟨task, now, t, outputs, _, ht, hstage, hstore⟩
    · rw [hstore] at hrow
      exact hold hrow
    · rw [hstore] at hrow
      change (o.store.cache.insert (t.job.entry w now outputs)).2.row? key = some row at hrow
      rw [Cache.row?_insert] at hrow
      rcases Option.or_eq_some_iff.mp hrow with hkept | ⟨_, hwritten⟩
      · exact hold hkept
      · split at hwritten
        · rename_i hkey
          have hsays := h.isTranslation_entry (List.mem_of_getElem? ht) hstage now
          exact ⟨t.job.entry w now outputs, (Option.some.inj hwritten).symm, hkey.symm,
            hsays.mono hrequests hanswers⟩
        · cases hwritten

end Office

/-!
# Requests that are ready
-/

theorem Asking.look_of_get {r : Request} {d : Desk} {e : Entry}
    (hget : d.store.get r.key = .ok (some e)) :
    (look r d).1 = .answered (.ok (.ready e.content e.markup)) := by
  rw [look, hget]

theorem Asking.step_eq_ready {r : Request} {d : Desk} {now : Int} {stage : Asking}
    {content : String} {markup : Markup}
    (h : (step now r stage d).1 = .answered (.ok (.ready content markup))) :
    stage = .answered (.ok (.ready content markup)) ∨
      ∃ e, d.store.get r.key = .ok (some e) ∧ e.content = content ∧ e.markup = markup := by
  cases stage with
  | looking =>
      rw [step, look] at h
      split at h
      · cases h
      · rename_i e hget
        cases h
        exact Or.inr ⟨e, hget, rfl, rfl⟩
      · cases h
  | locking =>
      rw [step, lock] at h
      generalize d.store.tryLock r.key now = result at h
      rcases result with ⟨_ | _ | token, store⟩ <;> cases h
  | queueing token =>
      rw [step, queue] at h
      split at h <;> cases h
  | returning token =>
      rw [step, giveBack] at h
      generalize d.store.unlock r.key token = result at h
      rcases result with ⟨_ | _, store⟩ <;> cases h
  | answered answer => exact Or.inl h

namespace Office

variable {o : Office}

def TellsCached (o : Office) : Prop :=
  ∀ e ∈ o.errands, ∀ content markup, e.stage = .answered (.ok (.ready content markup)) →
    ∃ entry, o.store.get e.request.key = .ok (some entry) ∧ entry.content = content ∧
      entry.markup = markup

theorem TellsCached.move (h : o.TellsCached) (hwhole : o.store.IsWhole) (m : Move) :
    (o.move w m).TellsCached := by
  intro e' he' content markup hready
  have hkept : ∀ key entry, o.store.get key = .ok (some entry) →
      (o.move w m).store.get key = .ok (some entry) :=
    fun _ _ hget => get_run hwhole hget [m]
  rcases List.mem_iff_getElem?.mp he' with ⟨i, hi⟩
  rcases errands_move hi with hold | hnew | ⟨e, now, he, hrequest, hstage⟩
  · rcases h e' (List.mem_of_getElem? hold) content markup hready with ⟨entry, hget, hsays⟩
    exact ⟨entry, hkept _ _ hget, hsays⟩
  · rw [hready] at hnew
    cases hnew
  · rw [hready] at hstage
    rw [hrequest]
    rcases Asking.step_eq_ready hstage.symm with hold | ⟨entry, hget, hsays⟩
    · rcases h e (List.mem_of_getElem? he) content markup hold with ⟨entry, hget, hsays⟩
      exact ⟨entry, hkept _ _ hget, hsays⟩
    · exact ⟨entry, hkept _ _ hget, hsays⟩

/-- The requests for a key that came since the first `n` have not looked yet, or have this
answer. -/
def AnswersSince (o : Office) (n : Nat) (key : ContentKey) (answer : Status) : Prop :=
  ∀ i e, n ≤ i → o.errands[i]? = some e → e.request.key = key →
    e.stage = .looking ∨ e.stage = .answered (.ok answer)

theorem step_of_get {e : Errand} {key : ContentKey} {entry : Entry}
    (hget : o.store.get key = .ok (some entry)) (hkey : e.request.key = key)
    (hstage : e.stage = .looking ∨
      e.stage = .answered (.ok (.ready entry.content entry.markup))) (now : Int) :
    (Asking.step now e.request e.stage o.desk).1 =
      .answered (.ok (.ready entry.content entry.markup)) := by
  rcases hstage with hstage | hstage
  · rw [hstage, Asking.step]
    exact Asking.look_of_get (by rw [hkey]; exact hget)
  · rw [hstage, Asking.step]

theorem AnswersSince.move {n : Nat} {key : ContentKey} {entry : Entry}
    (h : o.AnswersSince n key (.ready entry.content entry.markup))
    (hget : o.store.get key = .ok (some entry)) (m : Move) :
    (o.move w m).AnswersSince n key (.ready entry.content entry.markup) := by
  intro i e' hi he' hkey
  rcases errands_move he' with hold | hnew | ⟨e, now, he, hrequest, hstage⟩
  · exact h i e' hi hold hkey
  · exact Or.inl hnew
  · rw [hrequest] at hkey
    rw [hstage]
    exact Or.inr (step_of_get hget hkey (h i e hi he hkey) now)

theorem answersSince_run {key : ContentKey} {entry : Entry} (hwhole : o.store.IsWhole)
    (hget : o.store.get key = .ok (some entry)) (ms : List Move) :
    (o.run w ms).AnswersSince o.errands.length key (.ready entry.content entry.markup) := by
  have hrun : (o.run w ms).store.IsWhole ∧ (o.run w ms).store.get key = .ok (some entry) ∧
      (o.run w ms).AnswersSince o.errands.length key (.ready entry.content entry.markup) := by
    apply run_induction (motive := fun o' => o'.store.IsWhole ∧
      o'.store.get key = .ok (some entry) ∧
      o'.AnswersSince o.errands.length key (.ready entry.content entry.markup))
    · refine ⟨hwhole, hget, ?_⟩
      intro i e hi he _
      rw [List.getElem?_eq_none hi] at he
      cases he
    · rintro o' ⟨hwhole', hget', hanswers'⟩ m _
      exact ⟨isWhole_move w hwhole' m, get_run hwhole' hget' [m], hanswers'.move hget' m⟩
  exact hrun.right.right

/-!
# Runs
-/

theorem traced_run (w : Windows) (capacity : Nat) (enabled : Bool) (slots : Nat)
    (ms : List Move) :
    ((ofCache .empty capacity enabled slots).run w ms).IsTraced w ∧
      ((ofCache .empty capacity enabled slots).run w ms).TellsCached := by
  apply run_induction (motive := fun o => o.IsTraced w ∧ o.TellsCached)
  · refine ⟨isTraced_ofCache w capacity enabled slots, ?_⟩
    intro e he
    cases he
  · intro o ho m _
    exact ⟨ho.left.move m, ho.right.move ho.left.whole m⟩

/-- Every entry is one whole translation of one request and stays as it is, and once a request is
ready all that come later for its key get the same answer. -/
theorem whole_entries (w : Windows) (capacity : Nat) (enabled : Bool) (slots : Nat)
    (ms more : List Move) (key : ContentKey) :
    let o := (ofCache .empty capacity enabled slots).run w ms
    (∃ found, o.store.get key = .ok found) ∧
      (∀ e, o.store.get key = .ok (some e) →
        e.key = key ∧ IsTranslation w (ms.filterMap Move.request?) o.answers e ∧
          (o.run w more).store.get key = .ok (some e)) ∧
      ∀ first ∈ o.errands, first.request.key = key →
        ∀ content markup, first.stage = .answered (.ok (.ready content markup)) →
          ∀ i later now, o.errands.length ≤ i → (o.run w more).errands[i]? = some later →
            later.request.key = key →
              ((o.run w more).proceed i now).errands[i]? =
                some { later with stage := .answered (.ok (.ready content markup)) } := by
  intro o
  rcases traced_run w capacity enabled slots ms with ⟨htraced, htells⟩
  have hrequests : o.requests = ms.filterMap Move.request? := by
    rw [show o.requests = _ from requests_run w _ ms]
    rfl
  refine ⟨?_, ?_, ?_⟩
  · cases hrow : o.store.cache.row? key with
    | none =>
        refine ⟨none, ?_⟩
        rw [Store.get_of_isWhole htraced.whole, Cache.get_eq_none_iff.mpr hrow]
    | some row =>
        rcases htraced.rows key row hrow with ⟨e, rfl, _, _⟩
        exact ⟨some e, (Store.get_eq_some_iff htraced.whole).mpr ⟨_, hrow, Row.toEntry_ofEntry e⟩⟩
  · intro e hget
    rcases (Store.get_eq_some_iff htraced.whole).mp hget with ⟨row, hrow, hentry⟩
    rcases htraced.rows key row hrow with ⟨e', rfl, hkey, hsays⟩
    rw [Row.toEntry_ofEntry] at hentry
    cases hentry
    rw [← hrequests]
    exact ⟨hkey, hsays, get_run htraced.whole hget more⟩
  · intro first hfirst hkey content markup hready i later now hi hlater hlaterKey
    rcases htells first hfirst content markup hready with ⟨e, hget, rfl, rfl⟩
    rw [hkey] at hget
    have hsince := answersSince_run (w := w) htraced.whole hget more i later hi hlater hlaterKey
    rw [errands_proceed hlater, step_of_get (get_run htraced.whole hget more) hlaterKey hsince]

/-- A sweep lets two jobs of one key run side by side, and the entry is all of the faster one. -/
theorem whole_entries_of_two_jobs :
    let plain : Request := ⟨"Hi", "de", .plain, .summary⟩
    let marked : Request := ⟨"Hi", "de", .markdown, .summary⟩
    let entry : Entry := ⟨plain.key, "Hallo!", "de", .markdown, .summary, 7⟩
    let ms : List Move :=
      [.come plain, .proceed 0 5, .proceed 0 5, .proceed 0 5, .take, .start, .call 0 5, .call 0 5,
        .post 0 0, .sweep 6, .come marked, .proceed 1 6, .proceed 1 6, .proceed 1 6, .take, .start,
        .call 1 6, .call 1 6, .post 1 0, .hear 1 0 (.ok "Hallo!"), .call 1 7]
    let more : List Move := [.hear 0 0 (.ok "Hallo"), .call 0 8]
    ((ofCache .empty 1 true 2).run {} ms).store.get plain.key = .ok (some entry) ∧
      IsTranslation {} [plain, marked] ((ofCache .empty 1 true 2).run {} ms).answers entry ∧
      (((ofCache .empty 1 true 2).run {} ms).run {} more).store.get plain.key =
        .ok (some entry) := by
  intro plain marked entry ms more
  have hget : ((ofCache .empty 1 true 2).run {} ms).store.get plain.key = .ok (some entry) := by
    decide +kernel
  have hentry := (whole_entries {} 1 true 2 ms more plain.key).right.left entry hget
  exact ⟨hget, hentry.right.left, hentry.right.right⟩

end Office
end Translation
end Parley
