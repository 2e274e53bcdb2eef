import Parley.Proofs.Translation.Calls

/-!
# What jobs are told

A job goes from stage to stage by what it is told. It gets to work when it is told
about its lock, at its start, and it is abandoned when it is told that the lock is
lost. All else that it may be told keeps it where it is or takes it further on.
-/

namespace Parley
namespace Translation

/-!
# Jobs at work
-/

namespace Stage

def isAtWork : Stage → Bool
  | .starting | .ended _ => false
  | .checking | .translating _ | .saving _ | .releasing _ => true

theorem isAtWork_of_isRunning {stage : Stage} (h : stage.isRunning = true) :
    stage.isAtWork = true := by
  cases stage with
  | checking | translating | saving => rfl
  | starting | releasing | ended => cases h

theorem isOver_of_isAtWork {stage : Stage} (h : stage.isAtWork = true) :
    stage.isOver = false := by
  cases stage with
  | checking | translating | saving | releasing => rfl
  | starting | ended => cases h

theorem isAtWork_next {stage : Stage} {chunks : Nat} {news : News}
    (h : (stage.next chunks news).isAtWork = true) :
    stage.isAtWork = true ∨ stage = .starting ∧ ∃ result, news = .refreshed result := by
  cases stage with
  | checking | translating | saving | releasing => exact Or.inl rfl
  | starting =>
      cases news with
      | refreshed result => exact Or.inr ⟨rfl, result, rfl⟩
      | restamped result => rcases result with e | _ | _ <;> cases h
      | found | translated | saved | released => cases h
  | ended outcome =>
      cases news with
      | restamped result => rcases result with e | _ | _ <;> cases h
      | refreshed | found | translated | saved | released => cases h

theorem isRunning_next {stage : Stage} {chunks : Nat} {news : News}
    (h : (stage.next chunks news).isRunning = true) :
    stage.isRunning = true ∨ stage = .starting ∧ ∃ result, news = .refreshed result := by
  rcases isAtWork_next (isAtWork_of_isRunning h) with hwork | hstart
  · cases stage with
    | checking | translating | saving => exact Or.inl rfl
    | releasing outcome =>
        cases news with
        | restamped result => rcases result with e | _ | _ <;> cases h
        | refreshed | found | translated | saved | released => cases h
    | starting | ended => cases hwork
  · exact Or.inr hstart

theorem outcome?_ofVerdict (replies : List (Option Reply)) :
    (ofVerdict replies).outcome? ≠ some .abandoned := by
  rw [ofVerdict]
  split <;> simp [outcome?]

theorem outcome?_next_eq_abandoned {stage : Stage} {chunks : Nat} {news : News}
    (h : (stage.next chunks news).outcome? = some .abandoned) :
    stage.outcome? = some .abandoned ∨
      stage.isRunning = true ∧ news = .restamped (.ok false) := by
  cases news with
  | refreshed result =>
      left
      cases stage with
      | starting => rcases result with e | _ | _ <;> cases h
      | _ => exact h
  | found result =>
      left
      cases stage with
      | checking =>
          rcases result with e | _ | _
          · cases h
          · exact absurd h (outcome?_ofVerdict _)
          · cases h
      | _ => exact h
  | translated chunk reply =>
      left
      cases stage with
      | translating replies => exact absurd h (outcome?_ofVerdict _)
      | _ => exact h
  | saved result =>
      left
      cases stage with
      | saving outputs => rcases result with e | _ | _ <;> cases h
      | _ => exact h
  | released =>
      left
      cases stage <;> exact h
  | restamped result =>
      rcases result with e | _ | _
      · left
        cases stage <;> exact h
      · cases stage with
        | checking | translating | saving => exact Or.inr ⟨rfl, rfl⟩
        | starting | releasing | ended => exact Or.inl h
      · rw [next_restamped_true] at h
        exact Or.inl h

end Stage

namespace Office

variable {w : Windows} {o : Office} {m : Move}

/-!
# News
-/

inductive Told (o : Office) (m : Move) (t : Task) : News → Prop where
  | refreshed (now : Int)
      (hcall : o.lockCall? m = some (.refresh t.job.key t.job.token now)) :
      Told o m t (.refreshed (.ok (o.store.locks.owns t.job.key t.job.token)))
  | restamped : Told o m t (.restamped (.ok (o.store.locks.owns t.job.key t.job.token)))
  | found (result : Except StoreError Bool) : Told o m t (.found result)
  | translated (chunk : Nat) (reply : Reply) : Told o m t (.translated chunk reply)
  | saved (result : Except StoreError Bool) : Told o m t (.saved result)
  | released : Told o m t .released

def Learns (w : Windows) (o : Office) (m : Move) (t' : Task) : Prop :=
  t'.stage = .starting ∨ ∃ t ∈ o.tasks, t'.job = t.job ∧
    (t'.stage = t.stage ∨
      ∃ news, o.Told m t news ∧ t'.stage = t.stage.next (t.job.document w).chunks.length news)

theorem learns_of_mem {t : Task} (ht : t ∈ o.tasks) : Learns w o m t :=
  Or.inr ⟨t, ht, rfl, Or.inl rfl⟩

theorem learns_of_tell {i : Nat} {t t' : Task} (ht : o.tasks[i]? = some t) {o' : Office}
    (htasks : o'.tasks = o.tasks) {news : News} (htold : o.Told m t news)
    (ht' : t' ∈ (o'.tell w i t news).tasks) : Learns w o m t' := by
  rw [tell, htasks] at ht'
  rcases List.mem_or_eq_of_mem_set ht' with hold | rfl
  · exact learns_of_mem hold
  · exact Or.inr ⟨t, List.mem_of_getElem? ht, rfl, Or.inr ⟨news, htold, rfl⟩⟩

theorem learns_of_call (h : o.store.IsWhole) {task : Nat} {now : Int} {t' : Task}
    (ht' : t' ∈ (o.call w task now).tasks) : Learns w o (.call task now) t' := by
  rcases o.call_eq w task now with hsame | ⟨t, news, store, ht, hcall, heq⟩
  · rw [hsame] at ht'
    exact learns_of_mem ht'
  · rw [heq] at ht'
    refine learns_of_tell ht rfl ?_ ht'
    rcases t with ⟨job, stage, out⟩
    dsimp only [Stage.call, Store.access] at hcall
    cases stage with
    | starting =>
        dsimp only at hcall
        rw [Store.refresh_of_isWhole h] at hcall
        cases hcall
        exact .refreshed now (by rw [lockCall?, ht]; rfl)
    | checking =>
        cases hcall
        exact .found _
    | translating replies => cases hcall
    | saving outputs =>
        cases hcall
        exact .saved _
    | releasing outcome =>
        cases hcall
        exact .released
    | ended outcome => cases hcall

theorem learns_of_restamp (h : o.store.IsWhole) {task : Nat} {now : Int} {t' : Task}
    (ht' : t' ∈ (o.restamp w task now).tasks) : Learns w o (.restamp task now) t' := by
  rcases o.restamp_eq w task now with hsame | ⟨t, ht, _, heq⟩
  · rw [hsame] at ht'
    exact learns_of_mem ht'
  · rw [heq, Store.refresh_of_isWhole h] at ht'
    exact learns_of_tell ht rfl .restamped ht'

theorem learns_of_mem_move (h : o.store.IsWhole) (m : Move) {t' : Task}
    (ht' : t' ∈ (o.move w m).tasks) : Learns w o m t' := by
  cases m with
  | come | sweep => exact learns_of_mem ht'
  | proceed errand now =>
      rcases o.proceed_eq errand now with hsame | ⟨_, _, heq⟩
      · rw [move, hsame] at ht'
        exact learns_of_mem ht'
      · rw [move, heq] at ht'
        exact learns_of_mem ht'
  | take =>
      rcases o.take_eq with hsame | ⟨_, _, _, _, heq⟩
      · rw [move, hsame] at ht'
        exact learns_of_mem ht'
      · rw [move, heq] at ht'
        exact learns_of_mem ht'
  | start =>
      rcases o.start_eq with hsame | ⟨job, _, heq⟩
      · rw [move, hsame] at ht'
        exact learns_of_mem ht'
      · rw [move, heq] at ht'
        rcases List.mem_append.mp ht' with hold | hnew
        · exact learns_of_mem hold
        · rw [List.mem_singleton.mp hnew]
          exact Or.inl rfl
  | shut =>
      rw [move, shut] at ht'
      split at ht' <;> exact learns_of_mem ht'
  | call task now => exact learns_of_call h ht'
  | restamp task now => exact learns_of_restamp h ht'
  | post task chunk =>
      rcases o.post_eq w task chunk with hsame | ⟨t, _, _, ht, _, _, heq⟩
      · rw [move, hsame] at ht'
        exact learns_of_mem ht'
      · rw [move, heq] at ht'
        rcases List.mem_or_eq_of_mem_set ht' with hold | rfl
        · exact learns_of_mem hold
        · exact Or.inr ⟨t, List.mem_of_getElem? ht, rfl, Or.inl rfl⟩
  | hear task chunk reply =>
      rcases o.hear_eq w task chunk reply with hsame | ⟨t, _, _, ht, _, _, _, _, heq⟩
      · rw [move, hsame] at ht'
        exact learns_of_mem ht'
      · rw [move, heq] at ht'
        exact learns_of_tell ht rfl (.translated chunk reply) ht'

theorem source_of_next {p : Stage → Bool} (hstarting : p .starting = false)
    (hp : ∀ {stage : Stage} {chunks : Nat} {news : News}, p (stage.next chunks news) = true →
      p stage = true ∨ stage = .starting ∧ ∃ result, news = .refreshed result)
    (h : o.store.IsWhole) {t' : Task} (ht' : t' ∈ (o.move w m).tasks)
    (hstage' : p t'.stage = true) :
    ∃ t ∈ o.tasks, t'.job = t.job ∧ (p t.stage = true ∨
      ∃ now, o.restampedAt? m t.job.hold = some now) := by
  rcases learns_of_mem_move h m ht' with hstart | ⟨t, ht, hjob, hsame | ⟨news, htold, hnext⟩⟩
  · rw [hstart, hstarting] at hstage'
    cases hstage'
  · rw [hsame] at hstage'
    exact ⟨t, ht, hjob, Or.inl hstage'⟩
  · rw [hnext] at hstage'
    refine ⟨t, ht, hjob, ?_⟩
    rcases hp hstage' with hbefore | ⟨_, result, rfl⟩
    · exact Or.inl hbefore
    · cases htold with
      | refreshed now hcall => exact Or.inr ⟨now, restampedAt?_eq_some_iff.mpr hcall⟩

theorem abandoned_source (h : o.store.IsWhole) {t' : Task} (ht' : t' ∈ (o.move w m).tasks)
    (habandoned : t'.stage.outcome? = some .abandoned) :
    ∃ t ∈ o.tasks, t.stage.outcome? = some .abandoned ∨
      t.stage.isRunning = true ∧ o.store.locks.owns t.job.key t.job.token = false := by
  rcases learns_of_mem_move h m ht' with hstart | ⟨t, ht, _, hsame | ⟨news, htold, hnext⟩⟩
  · rw [hstart] at habandoned
    cases habandoned
  · rw [hsame] at habandoned
    exact ⟨t, ht, Or.inl habandoned⟩
  · rw [hnext] at habandoned
    refine ⟨t, ht, ?_⟩
    rcases Stage.outcome?_next_eq_abandoned habandoned with hbefore | ⟨hrunning, rfl⟩
    · exact Or.inl hbefore
    · generalize hnews : News.restamped (.ok false) = news at htold
      cases htold with
      | restamped => exact Or.inr ⟨hrunning, (Except.ok.inj (News.restamped.inj hnews)).symm⟩
      | refreshed | found | translated | saved | released => cases hnews

end Office
end Translation
end Parley
