import Parley.Proofs.Translation.Attempt

/-!
# All or nothing

Whichever of its calls fail, and whatever others do to the store meanwhile, a job
comes to its end. Then it has written its whole entry, where there was none, or
nothing at all; its lock is gone and all other locks are as it found them; and it was
counted once, as completed if it wrote and as failed if something failed.
-/

namespace Parley
namespace Translation

/-!
# Verdicts
-/

theorem any_hasFailed_of_inOrder {replies : List (Option Reply)} (h : inOrder replies = .failed) :
    replies.any hasFailed = true := by
  induction replies with
  | nil => cases h
  | cons reply rest ih =>
      rcases reply with _ | _ | output
      · cases h
      · rfl
      · rw [inOrder] at h
        split at h
        · cases h
        · exact ih h

theorem any_hasFailed_of_failed {replies : List (Option Reply)} (h : verdict replies = .failed) :
    replies.any hasFailed = true := by
  rw [verdict] at h
  split at h
  · rename_i heager
    exact (Bool.and_eq_true_iff.mp heager).right
  · exact any_hasFailed_of_inOrder h

theorem any_hasFailed_of_whole {replies : List (Option Reply)} {outputs : List String}
    (h : verdict replies = .whole outputs) : replies.any hasFailed = false := by
  rw [verdict_eq_whole h, List.any_map]
  exact List.any_eq_false.mpr fun _ _ => Bool.false_ne_true

theorem any_hasFailed_set {replies : List (Option Reply)} {i : Nat} (h : replies[i]? = some none)
    (reply : Reply) :
    (replies.set i (some reply)).any hasFailed =
      (replies.any hasFailed || hasFailed (some reply)) := by
  induction replies generalizing i with
  | nil => cases h
  | cons first rest ih =>
      cases i with
      | zero =>
          cases h
          exact Bool.or_comm _ _
      | succ i =>
          rw [List.set_cons_succ, List.any_cons, List.any_cons, ih h, Bool.or_assoc]

/-!
# What has come of a job
-/

namespace Attempt

/-- The job was told a translation of each of its chunks, and these are they. -/
structure Translated (w : Windows) (j : Job) (told : List News) (outputs : List String) :
    Prop where
  length_eq : outputs.length = (j.document w).chunks.length
  mem_told : ∀ i output, outputs[i]? = some output → .translated i (.ok output) ∈ told

structure Heard (w : Windows) (j : Job) (told : List News) (replies : List (Option Reply)) :
    Prop where
  length_eq : replies.length = (j.document w).chunks.length
  mem_told : ∀ i output, replies[i]? = some (some (.ok output)) →
    .translated i (.ok output) ∈ told
  failed : told.any News.isFailure = replies.any hasFailed

theorem Heard.translated {w : Windows} {j : Job} {told : List News}
    {replies : List (Option Reply)} {outputs : List String} (h : Heard w j told replies)
    (hverdict : verdict replies = .whole outputs) : Translated w j told outputs := by
  have hreplies := verdict_eq_whole hverdict
  subst hreplies
  constructor
  · rw [← h.length_eq, List.length_map]
  · intro i output houtput
    apply h.mem_told i output
    rw [List.getElem?_map, houtput]
    rfl

theorem Translated.append {w : Windows} {j : Job} {told : List News} {outputs : List String}
    (h : Translated w j told outputs) (more : List News) : Translated w j (told ++ more) outputs :=
  ⟨h.length_eq, fun i output hi => List.mem_append_left more (h.mem_told i output hi)⟩

/-- The row stands under the key of the job, and whoever reads it reads the whole translation that
was asked for, put together from these translations of its chunks. -/
structure Holds (w : Windows) (j : Job) (outputs : List String) (row : Row) : Prop where
  key : row.key = j.key.toHex
  reads : ∃ createdAt, row.toEntry = .ok
    { key := j.key
      content := (j.document w).reassemble outputs
      locale := j.request.locale
      markup := j.request.markup
      part := j.request.part
      createdAt := createdAt }

theorem holds_ofEntry (w : Windows) (j : Job) (now : Int) (outputs : List String) :
    Holds w j outputs (Row.ofEntry (j.entry w now outputs)) where
  key := rfl
  reads := ⟨now, Row.toEntry_ofEntry _⟩

section

variable (w : Windows) (j : Job) (s : Store) (cs : List StoreCall) (a : Attempt)

/-- Between two of the calls of others the job has added one row to a cache that had none of its
key, and the row holds the translations that the job was told of all its chunks. -/
def Wrote : Prop :=
  ∃ before after outputs row, cs = before ++ after ∧ Translated w j a.told outputs ∧
    Holds w j outputs row ∧ (s.afterCalls before).cache.row? j.key = none ∧
    Store.AgreeOn .cache a.store (((s.afterCalls before).withRow row).afterCalls after)

structure Fresh : Prop where
  cache : Store.AgreeOn .cache a.store (s.afterCalls cs)
  needed : a.told.any News.isNeedless = false

inductive Settled : Outcome → Prop where
  | completed (hwrote : Wrote w j s cs a) (hsound : a.told.any News.isFailure = false)
      (hneeded : a.told.any News.isNeedless = false) : Settled .completed
  | needless {outcome : Outcome} (hadd : ∀ c : Counters, c.add outcome = c)
      (hcache : Store.AgreeOn .cache a.store (s.afterCalls cs))
      (hsound : a.told.any News.isFailure = false) : Settled outcome
  | failed {outcome : Outcome}
      (hadd : ∀ c : Counters, c.add outcome = { c with failed := c.failed + 1 })
      (hcache : Store.AgreeOn .cache a.store (s.afterCalls cs))
      (hfailed : a.told.any News.isFailure = true)
      (hneeded : a.told.any News.isNeedless = false) : Settled outcome

/-- The last step of the job left no lock of its own. -/
def IsRid : Prop :=
  ∃ f, a.steps.getLast? = some f ∧ f.after.locks.owns j.key j.token = false

inductive Stands : Stage → Prop where
  | starting (h : Fresh s cs a) (hsound : a.told.any News.isFailure = false) :
      Stands .starting
  | checking (h : Fresh s cs a) (hsound : a.told.any News.isFailure = false) :
      Stands .checking
  | translating {replies : List (Option Reply)} (h : Fresh s cs a)
      (hheard : Heard w j a.told replies) (hwaiting : verdict replies = .waiting) :
      Stands (.translating replies)
  | saving {outputs : List String} (h : Fresh s cs a)
      (hsound : a.told.any News.isFailure = false)
      (htranslated : Translated w j a.told outputs) : Stands (.saving outputs)
  | releasing {outcome : Outcome} (h : Settled w j s cs a outcome) : Stands (.releasing outcome)
  | ended {outcome : Outcome} (h : Settled w j s cs a outcome) (hrid : IsRid j a) :
      Stands (.ended outcome)

end

variable {w : Windows} {j : Job} {s s' : Store} {cs : List StoreCall} {a : Attempt} {news : News}
  {outcome : Outcome}

/-!
# News
-/

theorem any_concat (told : List News) (news : News) (p : News → Bool) :
    (told ++ [news]).any p = (told.any p || p news) := by
  rw [List.any_append, List.any_cons, List.any_nil, Bool.or_false]

theorem any_tell (p : News → Bool) :
    (a.tell w j news s').told.any p = (a.told.any p || p news) :=
  any_concat a.told news p

theorem Fresh.tell (h : Fresh s cs a) (hcache : Store.AgreeOn .cache s' a.store)
    (hneeded : news.isNeedless = false) : Fresh s cs (a.tell w j news s') where
  cache := hcache.trans h.cache
  needed := by rw [any_tell, h.needed, hneeded]; rfl

theorem Fresh.settled_needless (h : Fresh s cs a) (hadd : ∀ c : Counters, c.add outcome = c)
    (hcache : Store.AgreeOn .cache s' a.store)
    (hsound : (a.tell w j news s').told.any News.isFailure = false) :
    Settled w j s cs (a.tell w j news s') outcome :=
  .needless hadd (hcache.trans h.cache) hsound

theorem Fresh.settled_failed (h : Fresh s cs a)
    (hadd : ∀ c : Counters, c.add outcome = { c with failed := c.failed + 1 })
    (hcache : Store.AgreeOn .cache s' a.store) (hneeded : news.isNeedless = false)
    (hfailed : (a.tell w j news s').told.any News.isFailure = true) :
    Settled w j s cs (a.tell w j news s') outcome :=
  .failed hadd (hcache.trans h.cache) hfailed (h.tell hcache hneeded).needed

theorem Settled.released (h : Settled w j s cs a outcome)
    (hcache : Store.AgreeOn .cache s' a.store) :
    Settled w j s cs (a.tell w j .released s') outcome := by
  have hsame : ∀ p : News → Bool, p .released = false →
      (a.tell w j .released s').told.any p = a.told.any p := by
    intro p hp
    rw [any_tell, hp, Bool.or_false]
  cases h with
  | completed hwrote hsound hneeded =>
      rcases hwrote with ⟨before, after, outputs, row, hcs, htranslated, hrow, hnone, hwritten⟩
      refine .completed ⟨before, after, outputs, row, hcs, htranslated.append _, hrow, hnone,
        hcache.trans hwritten⟩ ?_ ?_
      · rw [hsame _ rfl, hsound]
      · rw [hsame _ rfl, hneeded]
  | needless hadd hblank hsound =>
      refine .needless hadd (hcache.trans hblank) ?_
      rw [hsame _ rfl, hsound]
  | failed hadd hblank hfailed hneeded =>
      refine .failed hadd (hcache.trans hblank) ?_ ?_
      · rw [hsame _ rfl, hfailed]
      · rw [hsame _ rfl, hneeded]

theorem isRid_tell (h : s'.locks.owns j.key j.token = false) : IsRid j (a.tell w j news s') :=
  ⟨_, List.getLast?_concat, h⟩

/-!
# Replies
-/

theorem Heard.start {told : List News} (hsound : told.any News.isFailure = false) :
    Heard w j told (List.replicate (j.document w).chunks.length none) where
  length_eq := List.length_replicate
  mem_told i output hi := by
    rw [List.getElem?_replicate] at hi
    split at hi <;> cases hi
  failed := by
    rw [hsound]
    symm
    apply List.any_eq_false.mpr
    intro reply hreply
    rw [List.eq_of_mem_replicate hreply]
    exact Bool.false_ne_true

theorem Heard.restamped {told : List News} {replies : List (Option Reply)}
    {result : Except StoreError Bool} (h : Heard w j told replies)
    (hsound : (News.restamped result).isFailure = false) :
    Heard w j (told ++ [.restamped result]) replies where
  length_eq := h.length_eq
  mem_told i output hi := List.mem_append_left _ (h.mem_told i output hi)
  failed := by rw [any_concat, hsound, Bool.or_false, h.failed]

theorem Heard.set {told : List News} {replies : List (Option Reply)} {chunk : Nat}
    (h : Heard w j told replies) (hnone : replies[chunk]? = some none) (reply : Reply) :
    Heard w j (told ++ [.translated chunk reply]) (replies.set chunk (some reply)) where
  length_eq := by rw [List.length_set, h.length_eq]
  mem_told i output hi := by
    rw [List.getElem?_set] at hi
    split at hi
    · rename_i hchunk
      subst hchunk
      split at hi
      · cases hi
        exact List.mem_concat_self
      · cases hi
    · exact List.mem_append_left _ (h.mem_told i output hi)
  failed := by
    have hsame : (News.translated chunk reply).isFailure = hasFailed (some reply) := by
      cases reply <;> rfl
    rw [any_concat, hsame, h.failed, any_hasFailed_set hnone]

theorem Fresh.stands_ofVerdict (h : Fresh s cs a) {replies : List (Option Reply)}
    (hcache : Store.AgreeOn .cache s' a.store) (hneeded : news.isNeedless = false)
    (hheard : Heard w j (a.tell w j news s').told replies) :
    Stands w j s cs (a.tell w j news s') (.ofVerdict replies) := by
  rw [Stage.ofVerdict]
  cases hverdict : verdict replies with
  | waiting => exact .translating (h.tell hcache hneeded) hheard hverdict
  | failed =>
      refine .releasing (h.settled_failed (fun _ => rfl) hcache hneeded ?_)
      rw [hheard.failed, any_hasFailed_of_failed hverdict]
  | whole outputs =>
      refine .saving (h.tell hcache hneeded) ?_ (hheard.translated hverdict)
      rw [hheard.failed, any_hasFailed_of_whole hverdict]

/-!
# Turns
-/

theorem Fresh.stands_refreshed {result : Except StoreError Bool} (h : Fresh s cs a)
    (hsound : a.told.any News.isFailure = false) (hcache : Store.AgreeOn .cache s' a.store)
    (hlost : result = .ok false → s'.locks.owns j.key j.token = false) (chunks : Nat) :
    Stands w j s cs (a.tell w j (.refreshed result) s')
      (Stage.starting.next chunks (.refreshed result)) := by
  rcases result with error | _ | _
  · refine .releasing (h.settled_failed (fun _ => rfl) hcache rfl ?_)
    rw [any_tell, Bool.or_comm]
    rfl
  · refine .ended (h.settled_needless (fun _ => rfl) hcache ?_) (isRid_tell (hlost rfl))
    rw [any_tell, hsound]
    rfl
  · refine .checking (h.tell hcache rfl) ?_
    rw [any_tell, hsound]
    rfl

theorem Fresh.stands_found {result : Except StoreError Bool} (h : Fresh s cs a)
    (hsound : a.told.any News.isFailure = false) :
    Stands w j s cs (a.tell w j (.found result) a.store)
      (Stage.checking.next (j.document w).chunks.length (.found result)) := by
  have hcache : Store.AgreeOn .cache a.store a.store := Store.agreeOn_refl .cache a.store
  rcases result with error | _ | _
  · refine .releasing (h.settled_failed (fun _ => rfl) hcache rfl ?_)
    rw [any_tell, Bool.or_comm]
    rfl
  · refine h.stands_ofVerdict hcache rfl (Heard.start ?_)
    rw [any_tell, hsound]
    rfl
  · refine .releasing (h.settled_needless (fun _ => rfl) hcache ?_)
    rw [any_tell, hsound]
    rfl

theorem Fresh.wrote {outputs : List String} (h : Fresh s cs a)
    (htranslated : Translated w j a.told outputs) (hnone : a.store.cache.row? j.key = none)
    (now : Int) :
    Wrote w j s cs (a.tell w j news (a.store.withRow (Row.ofEntry (j.entry w now outputs)))) := by
  refine ⟨cs, [], outputs, _, (List.append_nil cs).symm, htranslated.append _,
    holds_ofEntry w j now outputs, ?_, ?_, ?_⟩
  · rw [← h.cache.left]
    exact hnone
  · show (a.store.withRow _).cache = ((s.afterCalls cs).withRow _).cache
    rw [Store.withRow, Store.withRow, h.cache.left]
  · exact h.cache.right

theorem Fresh.stands_saved {outputs : List String} (h : Fresh s cs a)
    (hsound : a.told.any News.isFailure = false) (htranslated : Translated w j a.told outputs)
    (failure? : Option StoreError) (now : Int) (chunks : Nat) :
    let saved := (Access.mayFail now failure?).insert (j.entry w now outputs) a.store
    Stands w j s cs (a.tell w j (.saved saved.1) saved.2)
      ((Stage.saving outputs).next chunks (.saved saved.1)) := by
  intro saved
  have hsame : Store.AgreeOn .cache a.store a.store := Store.agreeOn_refl .cache a.store
  have hcases := Access.insert_cases a.store now failure? (j.entry w now outputs)
  change (∃ error, saved = (.error error, a.store)) ∨ saved = (.ok false, a.store) ∨
    a.store.cache.row? j.key = none ∧
      saved = (.ok true, a.store.withRow (Row.ofEntry (j.entry w now outputs))) at hcases
  rcases hcases with ⟨error, heq⟩ | heq | ⟨hnone, heq⟩
  · rw [heq]
    refine .releasing (h.settled_failed (fun _ => rfl) hsame rfl ?_)
    rw [any_tell, Bool.or_comm]
    rfl
  · rw [heq]
    refine .releasing (h.settled_needless (fun _ => rfl) hsame ?_)
    rw [any_tell, hsound]
    rfl
  · rw [heq]
    refine .releasing (.completed (h.wrote htranslated hnone now) ?_ ?_)
    · rw [any_tell, hsound]
      rfl
    · rw [any_tell, h.needed]
      rfl

theorem Settled.stands_released (h : Settled w j s cs a outcome)
    (hlocks : a.store.hasLocks = true) :
    Stands w j s cs (a.tell w j .released (a.store.unlock j.key j.token).2) (.ended outcome) := by
  rw [Store.unlock, if_pos hlocks]
  exact .ended (h.released ⟨rfl, rfl⟩) (isRid_tell Locks.owns_release_self)

variable {stage : Stage}

theorem Stands.call {failure? : Option StoreError} {now : Int} (h : Stands w j s cs a stage)
    (hlocks : a.store.hasLocks = true)
    (hcall : stage.call (.mayFail now failure?) w now j a.store = some (news, s')) :
    Stands w j s cs (a.tell w j news s') (stage.next (j.document w).chunks.length news) := by
  cases h with
  | starting hfresh hsound =>
      cases hcall
      exact hfresh.stands_refreshed hsound Access.agreeOn_refresh Access.not_owns_of_refresh _
  | checking hfresh hsound =>
      cases hcall
      rw [Access.has_snd]
      exact hfresh.stands_found hsound
  | saving hfresh hsound htranslated =>
      cases hcall
      exact hfresh.stands_saved hsound htranslated failure? now _
  | releasing hsettled =>
      cases hcall
      rw [Access.unlock_eq]
      exact hsettled.stands_released hlocks
  | translating | ended => cases hcall

theorem Stands.hear {chunk : Nat} (h : Stands w j s cs a stage)
    (hout : stage.awaits chunk = true) (reply : Reply) :
    Stands w j s cs (a.tell w j (.translated chunk reply) a.store)
      (stage.next (j.document w).chunks.length (.translated chunk reply)) := by
  cases h with
  | translating hfresh hheard hwaiting =>
      exact hfresh.stands_ofVerdict (Store.agreeOn_refl .cache a.store) rfl
        (hheard.set (Stage.getElem?_of_awaits hout) reply)
  | starting | checking | saving | releasing | ended => cases hout

theorem Stands.fresh (h : Stands w j s cs a stage) (hrunning : stage.isRunning = true) :
    Fresh s cs a := by
  cases h with
  | checking h | translating h | saving h => exact h
  | starting | releasing | ended => cases hrunning

theorem Stands.kept {result : Except StoreError Bool} (h : Stands w j s cs a stage)
    (hrunning : stage.isRunning = true) (hcache : Store.AgreeOn .cache s' a.store)
    (hsound : (News.restamped result).isFailure = false) :
    Stands w j s cs (a.tell w j (.restamped result) s') stage := by
  have hfresh : Fresh s cs (a.tell w j (.restamped result) s') :=
    (h.fresh hrunning).tell hcache rfl
  have htold : (a.tell w j (.restamped result) s').told.any News.isFailure =
      a.told.any News.isFailure := by
    rw [any_tell, hsound, Bool.or_false]
  cases h with
  | checking _ hsound' => exact .checking hfresh (htold.trans hsound')
  | translating _ hheard hwaiting => exact .translating hfresh (hheard.restamped hsound) hwaiting
  | saving _ hsound' htranslated =>
      exact .saving hfresh (htold.trans hsound') (htranslated.append _)
  | starting | releasing | ended => cases hrunning

theorem Stands.restamped {result : Except StoreError Bool} (h : Stands w j s cs a stage)
    (hrunning : stage.isRunning = true) (hcache : Store.AgreeOn .cache s' a.store)
    (hlost : result = .ok false → s'.locks.owns j.key j.token = false) (chunks : Nat) :
    Stands w j s cs (a.tell w j (.restamped result) s')
      (stage.next chunks (.restamped result)) := by
  rcases result with error | _ | _
  · rw [Stage.next_restamped_error]
    exact h.kept hrunning hcache rfl
  · rw [Stage.next_restamped_false hrunning]
    refine .ended ((h.fresh hrunning).settled_failed (fun _ => rfl) hcache rfl ?_)
      (isRid_tell (hlost rfl))
    rw [any_tell, Bool.or_comm]
    rfl
  · rw [Stage.next_restamped_true]
    exact h.kept hrunning hcache rfl

theorem Wrote.others (h : Wrote w j s cs a) (c : StoreCall) :
    Wrote w j s (cs ++ [c]) { a with store := (a.store.call c).2 } := by
  rcases h with ⟨before, after, outputs, row, rfl, htranslated, hrow, hnone, hwritten⟩
  refine ⟨before, after ++ [c], outputs, row, List.append_assoc _ _ _, htranslated, hrow, hnone, ?_⟩
  rw [Store.afterCalls_concat]
  exact hwritten.call_both c

theorem Fresh.others (h : Fresh s cs a) (c : StoreCall) :
    Fresh s (cs ++ [c]) { a with store := (a.store.call c).2 } := by
  refine ⟨?_, h.needed⟩
  rw [Store.afterCalls_concat]
  exact h.cache.call_both c

theorem Settled.others (h : Settled w j s cs a outcome) (c : StoreCall) :
    Settled w j s (cs ++ [c]) { a with store := (a.store.call c).2 } outcome := by
  cases h with
  | completed hwrote hsound hneeded => exact .completed (hwrote.others c) hsound hneeded
  | needless hadd hblank hsound =>
      refine .needless hadd ?_ hsound
      rw [Store.afterCalls_concat]
      exact hblank.call_both c
  | failed hadd hblank hfailed hneeded =>
      refine .failed hadd ?_ hfailed hneeded
      rw [Store.afterCalls_concat]
      exact hblank.call_both c

theorem Stands.others (h : Stands w j s cs a stage) (c : StoreCall) :
    Stands w j s (cs ++ [c]) { a with store := (a.store.call c).2 } stage := by
  cases h with
  | starting h hsound => exact .starting (h.others c) hsound
  | checking h hsound => exact .checking (h.others c) hsound
  | translating h hheard hwaiting => exact .translating (h.others c) hheard hwaiting
  | saving h hsound htranslated => exact .saving (h.others c) hsound htranslated
  | releasing h => exact .releasing (h.others c)
  | ended h hrid => exact .ended (h.others c) hrid

/-!
# Runs
-/

structure IsSound (w : Windows) (j : Job) (s : Store) (cs : List StoreCall) (a : Attempt) :
    Prop where
  hasLocks : a.store.hasLocks = true
  few : a.told.countP (fun news => !news.isRestamped) +
    a.stage.turnsLeft (j.document w).chunks.length ≤ (j.document w).chunks.length + 4
  besides : ∀ f ∈ a.steps, Store.SameBesides (j.key, j.token) f.before f.after
  stands : Stands w j s cs a a.stage

theorem IsSound.tell (h : IsSound w j s cs a)
    (hsame : Store.SameBesides (j.key, j.token) a.store s')
    (hfew : (a.tell w j news s').stage.turnsLeft (j.document w).chunks.length +
      (if news.isRestamped then 0 else 1) ≤ a.stage.turnsLeft (j.document w).chunks.length)
    (hstands : Stands w j s cs (a.tell w j news s') (a.tell w j news s').stage) :
    IsSound w j s cs (a.tell w j news s') where
  hasLocks := hsame.hasLocks.trans h.hasLocks
  few := by
    have hcount : (a.tell w j news s').told.countP (fun news => !news.isRestamped) =
        a.told.countP (fun news => !news.isRestamped) + (if news.isRestamped then 0 else 1) := by
      show (a.told ++ [news]).countP _ = _
      rw [List.countP_append, List.countP_singleton]
      cases news.isRestamped <;> rfl
    have hbefore := h.few
    rw [hcount]
    omega
  besides f hf := by
    rcases List.mem_append.mp hf with hold | hnew
    · exact h.besides f hold
    · rw [List.mem_singleton.mp hnew]
      exact hsame
  stands := hstands

theorem IsSound.turn (h : IsSound w j s cs a) (t : Turn) :
    IsSound w j s (cs ++ t.others?.toList) (a.turn w j t) := by
  cases t with
  | call failure? now =>
      rw [Attempt.turn, Turn.others?, Option.toList_none, List.append_nil]
      split
      · rename_i news s' hcall
        rcases Stage.turnsLeft_call hcall (j.document w).chunks.length with ⟨hleft, hrestamped⟩
        refine h.tell (Stage.sameBesides_call hcall) ?_ (h.stands.call h.hasLocks hcall)
        rw [hrestamped]
        exact hleft
      · exact h
  | restamp failure? now =>
      rw [Attempt.turn, Turn.others?, Option.toList_none, List.append_nil]
      split
      · rename_i hrunning
        exact h.tell Access.sameBesides_refresh (Stage.turnsLeft_restamped _ _ _)
          (h.stands.restamped hrunning Access.agreeOn_refresh Access.not_owns_of_refresh _)
      · exact h
  | hear chunk reply =>
      rw [Attempt.turn, Turn.others?, Option.toList_none, List.append_nil]
      split
      · rename_i hout
        exact h.tell (.refl _ a.store) (Stage.turnsLeft_translated hout reply)
          (h.stands.hear hout reply)
      · exact h
  | others c =>
      exact ⟨(a.store.hasLocks_call c).trans h.hasLocks, h.few, h.besides, h.stands.others c⟩

theorem isSound_run (w : Windows) (j : Job) (hlocks : s.hasLocks = true) (counters : Counters)
    (ts : List Turn) :
    IsSound w j s (ts.filterMap Turn.others?) (run w j s counters ts) := by
  have hall : ∀ cs a, IsSound w j s cs a →
      IsSound w j s (cs ++ ts.filterMap Turn.others?) (ts.foldl (turn w j) a) := by
    induction ts with
    | nil =>
        intro cs a h
        rw [List.filterMap_nil, List.append_nil]
        exact h
    | cons t ts ih =>
        intro cs a h
        have hcons : (t :: ts).filterMap Turn.others? =
            t.others?.toList ++ ts.filterMap Turn.others? := by
          rw [List.filterMap_cons]
          cases t.others? <;> rfl
        rw [hcons, ← List.append_assoc]
        exact ih _ _ (h.turn t)
  refine hall [] ⟨.starting, s, counters, [], []⟩ ⟨hlocks, ?_, List.forall_mem_nil _, ?_⟩
  · exact Nat.le_of_eq (Nat.zero_add _)
  · exact .starting ⟨Store.agreeOn_refl .cache s, rfl⟩ rfl

theorem Stands.ended_or (h : Stands w j s cs a stage) :
    (∃ outcome, stage = .ended outcome) ∨ (∃ chunk, stage.awaits chunk = true) ∨
      ∀ failure? now, (stage.call (.mayFail now failure?) w now j a.store).isSome = true := by
  cases h with
  | starting | checking | saving | releasing => exact Or.inr (Or.inr fun _ _ => rfl)
  | translating _ _ hwaiting =>
      rcases exists_none_of_waiting hwaiting with ⟨chunk, hnone⟩
      refine Or.inr (Or.inl ⟨chunk, ?_⟩)
      rw [Stage.awaits, hnone]
  | ended => exact Or.inl ⟨_, rfl⟩

/-- Whatever fails, and whatever others do to the store meanwhile, a job ends after one call or
reply for each of its chunks and four calls besides, and until then has something to do or to wait
for. None of its steps touches a lock of somebody else, and the last one leaves none of its own. If
it was told that it is needless it has counted nothing. Either it has left the cache to others, and
was counted as failed if there was a failure, or there was none, it has written its whole entry
where there was none, and was counted as completed. -/
theorem all_or_nothing (w : Windows) (j : Job) (s : Store) (hlocks : s.hasLocks = true)
    (counters : Counters) (ts : List Turn) :
    let a := run w j s counters ts
    let others := ts.filterMap Turn.others?
    ((∃ outcome, a.stage = .ended outcome) ∨ (∃ chunk, a.stage.awaits chunk = true) ∨
        ∀ failure? now, (a.stage.call (.mayFail now failure?) w now j a.store).isSome = true) ∧
      ((j.document w).chunks.length + 4 ≤ a.told.countP (fun news => !news.isRestamped) →
        ∃ outcome, a.stage = .ended outcome) ∧
      (∀ f ∈ a.steps, f.after.locks.besides [(j.key, j.token)] =
        f.before.locks.besides [(j.key, j.token)]) ∧
      ∀ outcome, a.stage = .ended outcome →
        (∃ f, a.steps.getLast? = some f ∧ f.after.locks.owns j.key j.token = false) ∧
        (a.told.any News.isNeedless = true → a.counters = counters) ∧
        (Store.AgreeOn .cache a.store (s.afterCalls others) ∧
            a.counters = { counters with
              failed := counters.failed + if a.told.any News.isFailure then 1 else 0 } ∨
          Wrote w j s others a ∧ a.told.any News.isFailure = false ∧
            a.counters = { counters with completed := counters.completed + 1 }) := by
  intro a others
  have hsound : IsSound w j s others a := isSound_run w j hlocks counters ts
  refine ⟨hsound.stands.ended_or, ?_, fun f hf => (hsound.besides f hf).besides, ?_⟩
  · intro hmany
    apply Stage.ended_of_turnsLeft (j.document w).chunks.length
    have hfew := hsound.few
    omega
  · intro outcome hended
    have hcounted : a.counters = counters.add outcome := by
      have hall : IsCounted counters a := isCounted_run w j s counters ts
      rw [IsCounted, hended] at hall
      exact hall
    have hstands := hsound.stands
    rw [hended] at hstands
    cases hstands with
    | ended hsettled hrid =>
        refine ⟨hrid, ?_⟩
        cases hsettled with
        | completed hwrote hnone hneeded =>
            refine ⟨?_, Or.inr ⟨hwrote, hnone, hcounted⟩⟩
            intro hneedless
            rw [hneeded] at hneedless
            cases hneedless
        | needless hadd hcache hnone =>
            rw [hcounted, hadd, hnone]
            exact ⟨fun _ => rfl, Or.inl ⟨hcache, rfl⟩⟩
        | failed hadd hcache hfailed hneeded =>
            rw [hcounted, hadd, hfailed]
            refine ⟨?_, Or.inl ⟨hcache, rfl⟩⟩
            intro hneedless
            rw [hneeded] at hneedless
            cases hneedless

/-- A restamping fails while the chunk is out, and somebody else writes another entry. -/
theorem all_or_nothing_of_failed_restamping :
    let j : Job := ⟨⟨0⟩, ⟨"Hi", "de", .plain, .summary⟩⟩
    let s : Store := ⟨.empty, true, ⟨[⟨j.key, ⟨0⟩, 5⟩], 1⟩, true⟩
    let other : Entry := ⟨⟨Vector.replicate 32 7⟩, "Ha", "de", .plain, .summary, 6⟩
    let ts : List Turn := [.call none 5, .call none 5, .restamp (some .database) 35,
      .others (.insert other), .hear 0 (.ok "Hallo"), .call none 36, .call none 36]
    let a := run {} j s {} ts
    a.counters = { completed := 1 } ∧ Wrote {} j s [.insert other] a ∧
      a.store.get j.key = .ok (some ⟨j.key, "Hallo", "de", .plain, .summary, 36⟩) ∧
      ∃ outcome, a.stage = .ended outcome := by
  intro j s other ts a
  have hlocks : s.hasLocks = true := rfl
  rcases all_or_nothing {} j s hlocks {} ts with ⟨_, hends, _, hall⟩
  have hmany : (j.document {}).chunks.length + 4 ≤
      a.told.countP (fun news => !news.isRestamped) := by decide +kernel
  have hcounters : a.counters = { completed := 1 } := by decide +kernel
  rcases hends hmany with ⟨outcome, hended⟩
  rcases (hall outcome hended).right.right with ⟨_, hfailed⟩ | ⟨hwrote, _⟩
  · have hcompleted := congrArg Counters.completed (hcounters.symm.trans hfailed)
    cases hcompleted
  · exact ⟨hcounters, hwrote, by decide +kernel, outcome, hended⟩

end Attempt
end Translation
end Parley
