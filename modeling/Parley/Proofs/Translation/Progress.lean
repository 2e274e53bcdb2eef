import Parley.Proofs.Translation.Cache
import Parley.Proofs.Translation.Flight

/-!
# How things go on

What a move does to the requests that came, to the jobs that were started, to the
cache and to the record of the backend. A job begins to ask the backend only when
it found nothing in the cache, and from then on its replies are those on record.
All other stages know nothing of the backend.
-/

namespace Parley
namespace Translation

theorem Job.entry_key (w : Windows) (now : Int) (j : Job) (outputs : List String) :
    (j.entry w now outputs).key = j.key :=
  rfl

def Stage.usesBackend : Stage → Bool
  | .translating _ | .saving _ => true
  | _ => false

namespace Stage

theorem usesBackend_next_starting (chunks : Nat) (result : Except StoreError Bool) :
    (starting.next chunks (.refreshed result)).usesBackend = false := by
  rcases result with e | _ | _ <;> rfl

theorem usesBackend_next_saving (chunks : Nat) (outputs : List String)
    (result : Except StoreError Bool) :
    ((saving outputs).next chunks (.saved result)).usesBackend = false := by
  rcases result with e | _ | _ <;> rfl

end Stage

/-!
# Steps to an answer
-/

namespace Asking

def stepsLeft : Asking → Nat
  | .looking => 4
  | .locking => 3
  | .queueing _ => 2
  | .returning _ => 1
  | .answered _ => 0

theorem stepsLeft_step (now : Int) (r : Request) (stage : Asking) (d : Desk) :
    (step now r stage d).1.stepsLeft ≤ stage.stepsLeft - 1 := by
  cases stage with
  | looking =>
      dsimp only [step, look]
      split <;> simp [stepsLeft]
  | locking =>
      dsimp only [step, lock]
      split <;> simp [stepsLeft]
  | queueing token =>
      dsimp only [step, queue]
      split <;> simp [stepsLeft]
  | returning token => exact Nat.le_refl 0
  | answered answer => exact Nat.le_refl 0

theorem exists_answer_of_steps {n : Nat} {stage : Asking} (h : stage.stepsLeft ≤ n) (now : Int)
    (r : Request) (d : Desk) : ∃ answer, (steps now r n stage d).1 = .answered answer := by
  induction n generalizing stage d with
  | zero =>
      cases stage with
      | answered answer => exact ⟨answer, rfl⟩
      | looking | locking | queueing | returning => cases h
  | succ n ih =>
      have hleft : (step now r stage d).1.stepsLeft ≤ n :=
        Nat.le_trans (stepsLeft_step now r stage d) (Nat.sub_le_of_le_add h)
      exact ih hleft (step now r stage d).2

end Asking

namespace Office

variable {w : Windows} {o : Office}

/-!
# Jobs
-/

inductive Advance (w : Windows) (o o' : Office) (t : Task) : Stage → Prop where
  | same : Advance w o o' t t.stage
  | apart {stage : Stage} (hapart : stage.usesBackend = false) : Advance w o o' t stage
  | asked (hstage : t.stage = .checking) (hmissing : o.store.cache.row? t.job.key = none) :
      Advance w o o' t
        (.ofVerdict (List.replicate (t.job.document w).chunks.length none))
  | heard {replies : List (Option Reply)} {chunk : Nat} {text : String} {reply : Reply}
      (hstage : t.stage = .translating replies) (hwaiting : replies[chunk]? = some none)
      (htext : (t.job.document w).chunks[chunk]? = some text)
      (hrecord : (t.job.letter chunk text, reply) ∈ o'.answers) :
      Advance w o o' t (.ofVerdict (replies.set chunk (some reply)))

/-- A job after a move is the job it was, or was just started, or went on. -/
def Follows (w : Windows) (o o' : Office) : Prop :=
  ∀ t' ∈ o'.tasks, t' ∈ o.tasks ∨ t'.stage = .starting ∨
    ∃ t ∈ o.tasks, t'.job = t.job ∧ Advance w o o' t t'.stage

theorem follows_of_tasks {o' : Office} (h : o'.tasks = o.tasks) : Follows w o o' :=
  fun _ ht' => Or.inl (h ▸ ht')

theorem follows_of_set {o' : Office} {i : Nat} {t : Task} (ht : o.tasks[i]? = some t) (t' : Task)
    (htasks : o'.tasks = o.tasks.set i t') (hjob : t'.job = t.job)
    (hadvance : Advance w o o' t t'.stage) : Follows w o o' := by
  intro t'' ht''
  rw [htasks] at ht''
  rcases List.mem_or_eq_of_mem_set ht'' with hold | rfl
  · exact Or.inl hold
  · exact Or.inr (Or.inr ⟨t, List.mem_of_getElem? ht, hjob, hadvance⟩)

theorem follows_tell {i : Nat} {t : Task} (ht : o.tasks[i]? = some t) (o' : Office)
    (htasks : o'.tasks = o.tasks) {news : News}
    (hadvance : Advance w o (o'.tell w i t news) t
      (t.stage.next (t.job.document w).chunks.length news)) :
    Follows w o (o'.tell w i t news) :=
  follows_of_set ht { t with stage := t.stage.next (t.job.document w).chunks.length news }
    (by rw [← htasks]; rfl) rfl hadvance

theorem follows_call (h : o.store.IsWhole) (task : Nat) (now : Int) :
    Follows w o (o.call w task now) := by
  rcases o.call_eq w task now with hsame | ⟨t, news, store, ht, hcall, heq⟩
  · exact follows_of_tasks (by rw [hsame])
  · rw [heq]
    refine follows_tell ht (o.withStore store) rfl ?_
    rcases t with ⟨job, stage, out⟩
    dsimp only [Stage.call, Store.access] at hcall
    cases stage with
    | starting =>
        cases hcall
        exact .apart (Stage.usesBackend_next_starting _ _)
    | checking =>
        cases hcall
        cases hget : o.store.get job.key with
        | error e => exact .apart rfl
        | ok found =>
            cases found with
            | some entry => exact .apart rfl
            | none =>
                refine .asked rfl (Cache.get_eq_none_iff.mp ?_)
                rw [Store.get_of_isWhole h] at hget
                split at hget
                · rename_i hcache
                  cases hget
                  exact hcache
                · cases hget
    | translating replies => cases hcall
    | saving outputs =>
        cases hcall
        exact .apart (Stage.usesBackend_next_saving _ _ _)
    | releasing outcome =>
        cases hcall
        exact .apart rfl
    | ended outcome => cases hcall

theorem follows_restamp (h : o.store.IsWhole) (task : Nat) (now : Int) :
    Follows w o (o.restamp w task now) := by
  rcases o.restamp_eq w task now with hsame | ⟨t, ht, hrunning, heq⟩
  · exact follows_of_tasks (by rw [hsame])
  · rw [heq, Store.refresh_of_isWhole h]
    refine follows_tell ht _ ?_ ?_
    · rfl
    · cases o.store.locks.owns t.job.key t.job.token with
      | true =>
          rw [Stage.next_restamped_true]
          exact .same
      | false =>
          rw [Stage.next_restamped_false hrunning]
          exact .apart rfl

theorem follows_hear (task chunk : Nat) (reply : Reply) :
    Follows w o (o.hear w task chunk reply) := by
  rcases o.hear_eq w task chunk reply with
    hsame | ⟨t, replies, text, ht, hstage, hwaiting, _, htext, heq⟩
  · exact follows_of_tasks (by rw [hsame])
  · rw [heq]
    refine follows_tell ht
      { o with answers := o.answers ++ [(t.job.letter chunk text, reply)] } rfl ?_
    rw [hstage]
    exact .heard hstage hwaiting htext (by simp [tell])

theorem follows_move (w : Windows) (h : o.store.IsWhole) (m : Move) :
    Follows w o (o.move w m) := by
  cases m with
  | come r => exact follows_of_tasks rfl
  | proceed errand now =>
      rcases o.proceed_eq errand now with hsame | ⟨e, _, heq⟩
      · exact follows_of_tasks (by rw [move, hsame])
      · exact follows_of_tasks (by rw [move, heq])
  | take =>
      rcases o.take_eq with hsame | ⟨_, _, _, _, heq⟩
      · exact follows_of_tasks (by rw [move, hsame])
      · exact follows_of_tasks (by rw [move, heq])
  | start =>
      rcases o.start_eq with hsame | ⟨job, _, heq⟩
      · exact follows_of_tasks (by rw [move, hsame])
      · intro t' ht'
        rw [move, heq] at ht'
        rcases List.mem_append.mp ht' with hold | hnew
        · exact Or.inl hold
        · rw [List.mem_singleton.mp hnew]
          exact Or.inr (Or.inl rfl)
  | shut =>
      apply follows_of_tasks
      rw [move, shut]
      split <;> rfl
  | call task now => exact follows_call h task now
  | restamp task now => exact follows_restamp h task now
  | post task chunk =>
      rcases o.post_eq w task chunk with hsame | ⟨t, _, _, ht, _, _, heq⟩
      · exact follows_of_tasks (by rw [move, hsame])
      · exact follows_of_set ht { t with out := chunk :: t.out } (by rw [move, heq]) rfl .same
  | hear task chunk reply => exact follows_hear task chunk reply
  | sweep cutoff => exact follows_of_tasks rfl

/-!
# The record of the backend
-/

def Move.isBackend : Move → Bool
  | .post _ _ | .hear _ _ _ => true
  | _ => false

theorem record_move (w : Windows) (o : Office) {m : Move} (h : m.isBackend = false) :
    (o.move w m).posted = o.posted ∧ (o.move w m).answers = o.answers := by
  cases m with
  | come r => exact ⟨rfl, rfl⟩
  | proceed errand now =>
      rw [move, proceed]
      split <;> exact ⟨rfl, rfl⟩
  | take =>
      rw [move, take]
      split <;> exact ⟨rfl, rfl⟩
  | start =>
      rw [move, start]
      split <;> exact ⟨rfl, rfl⟩
  | shut =>
      rw [move, shut]
      split <;> exact ⟨rfl, rfl⟩
  | call task now =>
      rcases o.call_eq w task now with hsame | ⟨_, _, _, _, _, heq⟩
      · rw [move, hsame]
        exact ⟨rfl, rfl⟩
      · rw [move, heq]
        exact ⟨rfl, rfl⟩
  | restamp task now =>
      rcases o.restamp_eq w task now with hsame | ⟨_, _, _, heq⟩
      · rw [move, hsame]
        exact ⟨rfl, rfl⟩
      · rw [move, heq]
        exact ⟨rfl, rfl⟩
  | post | hear => cases h
  | sweep cutoff => exact ⟨rfl, rfl⟩

theorem posted_move (w : Windows) (o : Office) (m : Move) :
    (o.move w m).posted = o.posted ∨
      ∃ t ∈ o.tasks, ∃ replies chunk text, t.stage = .translating replies ∧
        (o.move w m).posted = o.posted ++ [t.job.letter chunk text] := by
  cases m with
  | post task chunk =>
      rcases o.post_eq w task chunk with hsame | ⟨t, replies, text, ht, hstage, _, heq⟩
      · exact Or.inl (by rw [move, hsame])
      · exact Or.inr
          ⟨t, List.mem_of_getElem? ht, replies, chunk, text, hstage, by rw [move, heq]⟩
  | hear task chunk reply =>
      rcases o.hear_eq w task chunk reply with hsame | ⟨_, _, _, _, _, _, _, _, heq⟩
      · exact Or.inl (by rw [move, hsame])
      · exact Or.inl (by rw [move, heq]; rfl)
  | come | proceed | take | start | shut | call | restamp | sweep =>
      exact Or.inl (record_move w o rfl).left

theorem answers_subset_move (w : Windows) (o : Office) (m : Move) :
    o.answers ⊆ (o.move w m).answers := by
  cases m with
  | post task chunk =>
      rcases o.post_eq w task chunk with hsame | ⟨_, _, _, _, _, _, heq⟩
      · rw [move, hsame]
        exact List.Subset.refl _
      · rw [move, heq]
        exact List.Subset.refl _
  | hear task chunk reply =>
      rcases o.hear_eq w task chunk reply with hsame | ⟨_, _, _, _, _, _, _, _, heq⟩
      · rw [move, hsame]
        exact List.Subset.refl _
      · rw [move, heq]
        exact List.subset_append_left _ _
  | come | proceed | take | start | shut | call | restamp | sweep =>
      rw [(record_move w o rfl).right]
      exact List.Subset.refl _

/-!
# The cache
-/

theorem row?_move {w : Windows} (h : o.store.IsWhole) {key : ContentKey} {row : Row}
    (hrow : o.store.cache.row? key = some row) (m : Move) :
    (o.move w m).store.cache.row? key = some row := by
  rcases store_move w h m with ⟨locks, hstore⟩ | ⟨_, _, _, _, _, _, _, hstore⟩
  · rw [hstore]
    exact hrow
  · rw [hstore]
    exact Cache.row?_insert_of_some hrow

theorem row?_run {w : Windows} (h : o.store.IsWhole) {key : ContentKey} {row : Row}
    (hrow : o.store.cache.row? key = some row) (ms : List Move) :
    (o.run w ms).store.IsWhole ∧ (o.run w ms).store.cache.row? key = some row :=
  run_induction (motive := fun o => o.store.IsWhole ∧ o.store.cache.row? key = some row)
    ⟨h, hrow⟩ fun _ ho m _ => ⟨isWhole_move w ho.left m, row?_move ho.left ho.right m⟩

/-!
# Requests
-/

def Move.isErrand : Move → Bool
  | .come _ | .proceed _ _ => true
  | _ => false

theorem errands_move_of_not_isErrand (w : Windows) (o : Office) {m : Move}
    (h : m.isErrand = false) : (o.move w m).errands = o.errands := by
  cases m with
  | come | proceed => cases h
  | take =>
      rcases o.take_eq with hsame | ⟨_, _, _, _, heq⟩
      · rw [move, hsame]
      · rw [move, heq]
  | start =>
      rcases o.start_eq with hsame | ⟨_, _, heq⟩
      · rw [move, hsame]
      · rw [move, heq]
  | shut =>
      rw [move, shut]
      split <;> rfl
  | call task now =>
      rcases o.call_eq w task now with hsame | ⟨_, _, _, _, _, heq⟩
      · rw [move, hsame]
      · rw [move, heq]
        rfl
  | restamp task now =>
      rcases o.restamp_eq w task now with hsame | ⟨_, _, _, heq⟩
      · rw [move, hsame]
      · rw [move, heq]
        rfl
  | post task chunk =>
      rcases o.post_eq w task chunk with hsame | ⟨_, _, _, _, _, _, heq⟩
      · rw [move, hsame]
      · rw [move, heq]
  | hear task chunk reply =>
      rcases o.hear_eq w task chunk reply with hsame | ⟨_, _, _, _, _, _, _, _, heq⟩
      · rw [move, hsame]
      · rw [move, heq]
        rfl
  | sweep cutoff => rfl

theorem errands_move {m : Move} {i : Nat} {e' : Errand}
    (h : (o.move w m).errands[i]? = some e') :
    o.errands[i]? = some e' ∨ e'.stage = .looking ∨
      ∃ e now, o.errands[i]? = some e ∧ e'.request = e.request ∧
        e'.stage = (Asking.step now e.request e.stage o.desk).1 := by
  cases m with
  | come r =>
      rw [move, come, List.getElem?_append] at h
      split at h
      · exact Or.inl h
      · have hnew := List.mem_of_getElem? h
        rw [List.mem_singleton.mp hnew]
        exact Or.inr (Or.inl rfl)
  | proceed errand now =>
      rcases o.proceed_eq errand now with hsame | ⟨e, he, heq⟩
      · rw [move, hsame] at h
        exact Or.inl h
      · rw [move, heq, List.getElem?_set] at h
        split at h
        · rename_i hi
          subst hi
          split at h
          · cases h
            exact Or.inr (Or.inr ⟨e, now, he, rfl, rfl⟩)
          · cases h
        · exact Or.inl h
  | take | start | shut | call | restamp | post | hear | sweep =>
      rw [errands_move_of_not_isErrand w o rfl] at h
      exact Or.inl h

theorem errands_proceed {i : Nat} {e : Errand} (he : o.errands[i]? = some e) (now : Int) :
    (o.proceed i now).errands[i]? =
      some { e with stage := (Asking.step now e.request e.stage o.desk).1 } := by
  rw [proceed, he]
  exact List.getElem?_set_self (List.getElem?_eq_some_iff.mp he).choose

theorem run_proceeds {i : Nat} {e : Errand} (he : o.errands[i]? = some e) (now : Int) (n : Nat) :
    (o.run w (List.replicate n (.proceed i now))).desk =
        (Asking.steps now e.request n e.stage o.desk).2 ∧
      (o.run w (List.replicate n (.proceed i now))).errands[i]? =
        some { e with stage := (Asking.steps now e.request n e.stage o.desk).1 } := by
  induction n generalizing o e with
  | zero => exact ⟨rfl, he⟩
  | succ n ih =>
      have hdesk : (o.proceed i now).desk = (Asking.step now e.request e.stage o.desk).2 := by
        rw [proceed, he]
      have hrest := ih (errands_proceed he now)
      rw [hdesk] at hrest
      exact hrest

/-- A request that nothing comes between leaves the desk as if it had been asked at once. -/
theorem desk_of_ask (w : Windows) (o : Office) (r : Request) (now : Int) :
    ((o.come r).run w (List.replicate 4 (.proceed o.errands.length now))).desk =
      (o.desk.ask now r).2 := by
  have he : (o.come r).errands[o.errands.length]? = some ⟨r, .looking⟩ :=
    List.getElem?_concat_length
  rw [(run_proceeds he now 4).left, Desk.ask]
  dsimp only
  split
  · rename_i hsteps
    exact congrArg Prod.snd hsteps
  · rename_i hsteps
    exact congrArg Prod.snd hsteps

theorem errand_of_ask (w : Windows) (o : Office) (r : Request) (now : Int) :
    ((o.come r).run w (List.replicate 4 (.proceed o.errands.length now))).errands[
      o.errands.length]? = some ⟨r, .answered (o.desk.ask now r).1⟩ := by
  have he : (o.come r).errands[o.errands.length]? = some ⟨r, .looking⟩ :=
    List.getElem?_concat_length
  have hleft : Asking.looking.stepsLeft ≤ 4 := Nat.le_refl 4
  rcases Asking.exists_answer_of_steps hleft now r (o.come r).desk with ⟨answer, hanswer⟩
  have hask : (o.desk.ask now r).1 = answer := by
    rw [Desk.ask]
    dsimp only
    split
    · rename_i hsteps
      exact Asking.answered.inj ((congrArg Prod.fst hsteps).symm.trans hanswer)
    · rename_i hnone hsteps
      exact (hnone answer ((congrArg Prod.fst hsteps).symm.trans hanswer)).elim
  rw [(run_proceeds he now 4).right, hanswer, hask]

def Move.request? : Move → Option Request
  | .come r => some r
  | _ => none

theorem requests_move (w : Windows) (o : Office) (m : Move) :
    (o.move w m).requests = o.requests ++ m.request?.toList := by
  cases m with
  | come r => simp [move, come, requests, Move.request?]
  | proceed errand now =>
      change _ = o.requests ++ []
      rw [List.append_nil]
      rcases o.proceed_eq errand now with hsame | ⟨e, he, heq⟩
      · rw [move, hsame]
      · have hrequest : (o.errands.map Errand.request)[errand]? = some e.request := by
          rw [List.getElem?_map, he]
          rfl
        rcases List.getElem?_eq_some_iff.mp hrequest with ⟨hlt, hget⟩
        rw [move, heq, requests, List.map_set, ← hget]
        exact List.set_getElem_self hlt
  | take | start | shut | call | restamp | post | hear | sweep =>
      rw [requests, errands_move_of_not_isErrand w o rfl]
      exact (List.append_nil _).symm

theorem requests_run (w : Windows) (o : Office) (ms : List Move) :
    (o.run w ms).requests = o.requests ++ ms.filterMap Move.request? := by
  induction ms generalizing o with
  | nil => exact (List.append_nil _).symm
  | cons m ms ih =>
      have hcons : (m :: ms).filterMap Move.request? =
          m.request?.toList ++ ms.filterMap Move.request? := by
        rw [List.filterMap_cons]
        cases m.request? <;> rfl
      change ((o.move w m).run w ms).requests = _
      rw [ih, requests_move, hcons, List.append_assoc]

end Office
end Translation
end Parley
