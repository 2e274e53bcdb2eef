import Parley.Proofs.Http.Locale
import Parley.Proofs.Translation.Origin

/-!
# The reception

Whoever wants a translation is received here. Some are answered at the door, and
the office never hears of them; all others have an errand in the office, which
goes on with its work as it likes and now and then loses a table of its store.

Only what can be translated gets as far as the office, and so nothing is done there
for anything else. An answer at the door leaves no trace: all that happens in the
office happens in the same way without the visit.
-/

namespace Parley
namespace Http

open Translation (Errand Office Store Windows)

/-- The request that a visitor makes to the office, or an answer at the door. -/
def asked? (visitor : Request) : Except Response Translation.Request :=
  (Inquiry.ofRequest visitor).bind (Answer.request? visitor)

structure Visit where
  visitor : Request
  fate : Except Response Nat

def Visit.response? (o : Office) (v : Visit) : Option Response :=
  match v.fate with
  | .error response => some response
  | .ok errand =>
    match o.errands[errand]? with
    | some ⟨request, .answered answer⟩ => some (Answer.ofStatus request.locale answer)
    | _ => none

structure Reception where
  office : Office
  /-- All visits, in order. -/
  visits : List Visit

namespace Reception

def ofStore (s : Store) (capacity : Nat) (enabled : Bool) (slots : Nat) : Reception :=
  ⟨.ofStore s capacity enabled slots, []⟩

/-!
# Moves
-/

def visit (x : Reception) (visitor : Request) : Reception :=
  match asked? visitor with
  | .error response => { x with visits := x.visits ++ [⟨visitor, .error response⟩] }
  | .ok request =>
    { x with
      office := x.office.come request
      visits := x.visits ++ [⟨visitor, .ok x.office.errands.length⟩] }

inductive Move where
  | visit (visitor : Request)
  /-- The office does something of its own accord; nobody comes there but through the door. -/
  | work (m : Office.Move)
  | lose (t : Translation.Table)
  | reopen

def move (w : Windows) (x : Reception) : Move → Reception
  | .visit visitor => x.visit visitor
  | .work m => if m.request?.isSome then x else { x with office := x.office.move w m }
  | .lose t => { x with office := x.office.withStore (x.office.store.lose t) }
  | .reopen => { x with office := x.office.withStore x.office.store.reopen }

def run (w : Windows) (x : Reception) (ms : List Move) : Reception :=
  ms.foldl (move w) x

variable {w : Windows} {x : Reception} {visitor : Request}

theorem run_append (w : Windows) (x : Reception) (ms ms' : List Move) :
    x.run w (ms ++ ms') = (x.run w ms).run w ms' :=
  List.foldl_append

theorem run_induction {motive : Reception → Prop} {ms : List Move} (start : motive x)
    (step : ∀ x, motive x → ∀ m ∈ ms, motive (x.move w m)) : motive (x.run w ms) := by
  induction ms generalizing x with
  | nil => exact start
  | cons m ms ih =>
      apply ih
      · exact step x start m List.mem_cons_self
      · intro x hx m' hm'
        exact step x hx m' (List.mem_cons_of_mem m hm')

theorem visit_of_error {response : Response} (h : asked? visitor = .error response) :
    x.visit visitor = { x with visits := x.visits ++ [⟨visitor, .error response⟩] } := by
  rw [visit, h]

theorem visit_of_ok {request : Translation.Request} (h : asked? visitor = .ok request) :
    x.visit visitor =
      { x with
        office := x.office.come request
        visits := x.visits ++ [⟨visitor, .ok x.office.errands.length⟩] } := by
  rw [visit, h]

/-!
# What the office sees
-/

theorem office_move_congr {x' : Reception} (h : x.office = x'.office) (m : Move) :
    (x.move w m).office = (x'.move w m).office := by
  cases m with
  | visit visitor =>
      rw [move, move]
      cases hasked : asked? visitor with
      | error response =>
          rw [visit_of_error hasked, visit_of_error hasked]
          exact h
      | ok request =>
          rw [visit_of_ok hasked, visit_of_ok hasked, h]
  | work m =>
      rw [move, move]
      split
      · exact h
      · rw [h]
  | lose | reopen => rw [move, move, h]

theorem office_run_congr {x' : Reception} (h : x.office = x'.office) (ms : List Move) :
    (x.run w ms).office = (x'.run w ms).office := by
  induction ms generalizing x x' with
  | nil => exact h
  | cons m ms ih => exact ih (office_move_congr h m)

/-- Who is answered at the door leaves no trace in the office. -/
theorem office_run_of_error {response : Response} (h : asked? visitor = .error response)
    (before after : List Move) :
    (x.run w (before ++ .visit visitor :: after)).office =
      (x.run w (before ++ after)).office := by
  rw [run_append, run_append]
  exact office_run_congr (x := (x.run w before).visit visitor) (by rw [visit_of_error h]) after

/-!
# Visits
-/

theorem visits_move (w : Windows) (x : Reception) (m : Move) :
    ∃ more, (x.move w m).visits = x.visits ++ more := by
  cases m with
  | visit visitor =>
      rw [move]
      cases hasked : asked? visitor with
      | error response => exact ⟨_, by rw [visit_of_error hasked]⟩
      | ok request => exact ⟨_, by rw [visit_of_ok hasked]⟩
  | work m =>
      rw [move]
      split <;> exact ⟨[], (List.append_nil _).symm⟩
  | lose | reopen => exact ⟨[], (List.append_nil _).symm⟩

theorem visits_run (w : Windows) (x : Reception) (ms : List Move) :
    ∃ more, (x.run w ms).visits = x.visits ++ more := by
  induction ms generalizing x with
  | nil => exact ⟨[], (List.append_nil _).symm⟩
  | cons m ms ih =>
      rcases visits_move w x m with ⟨one, hone⟩
      rcases ih (x.move w m) with ⟨more, hmore⟩
      refine ⟨one ++ more, ?_⟩
      rw [← List.append_assoc, ← hone]
      exact hmore

theorem visits_run_visit (w : Windows) (x : Reception) (visitor : Request) (after : List Move) :
    ((x.visit visitor).run w after).visits[x.visits.length]? =
      some ⟨visitor, (asked? visitor).map fun _ => x.office.errands.length⟩ := by
  rcases visits_run w (x.visit visitor) after with ⟨more, hmore⟩
  rw [hmore]
  cases hasked : asked? visitor with
  | error response =>
      rw [visit_of_error hasked, List.append_assoc, List.getElem?_append_right (Nat.le_refl _),
        Nat.sub_self]
      rfl
  | ok request =>
      rw [visit_of_ok hasked, List.append_assoc, List.getElem?_append_right (Nat.le_refl _),
        Nat.sub_self]
      rfl

theorem status_ofStatus (locale : String)
    (answer : Except Translation.StoreError Status) :
    (Answer.ofStatus locale answer).status ∈ [200, 202, 500] := by
  rcases answer with e | ⟨content, markup⟩ | _
  · exact List.mem_cons_of_mem _ (List.mem_cons_of_mem _ List.mem_cons_self)
  · have hstatus : ∀ (r : Response) name value,
        (r.withFieldIfAllowed name value).status = r.status := by
      intro r name value
      rw [Response.withFieldIfAllowed]
      split <;> rfl
    rw [Answer.ofStatus, hstatus]
    exact List.mem_cons_self
  · exact List.mem_cons_of_mem _ List.mem_cons_self

theorem response?_of_ok {o : Office} {v : Visit} {errand : Nat} (hfate : v.fate = .ok errand)
    {response : Response} (h : v.response? o = some response) :
    response.status ∈ [200, 202, 500] := by
  rw [Visit.response?, hfate] at h
  dsimp only at h
  split at h
  · cases h
    exact status_ofStatus _ _
  · cases h

/-!
# Visits that nothing comes between
-/

theorem run_work {ms : List Office.Move} (hms : ∀ m ∈ ms, m.request? = none) :
    x.run w (ms.map .work) = { x with office := x.office.run w ms } := by
  induction ms generalizing x with
  | nil => rfl
  | cons m ms ih =>
      have hmove : x.move w (.work m) = { x with office := x.office.move w m } := by
        rw [move, hms m List.mem_cons_self]
        rfl
      change (x.move w (.work m)).run w (ms.map .work) = _
      rw [hmove, ih fun m' hm' => hms m' (List.mem_cons_of_mem m hm')]
      rfl

theorem office_run_of_no_errand {o : Office} {errand : Nat} (h : o.errands[errand]? = none)
    (now : Int) (n : Nat) : o.run w (List.replicate n (.proceed errand now)) = o := by
  induction n with
  | zero => rfl
  | succ n ih =>
      have hsame : o.proceed errand now = o := by
        rw [Office.proceed, h]
      rw [List.replicate_succ]
      change (o.proceed errand now).run w _ = o
      rw [hsame]
      exact ih

/-- A visitor whose errand goes on at once gets the answer that the server gives, and leaves the
desk as the server leaves it. -/
theorem visit_at_once (w : Windows) (x : Reception) (visitor : Request) (now : Int) :
    let proceeds : List Move :=
      (List.replicate 4 (.proceed x.office.errands.length now)).map .work
    let x' := (x.visit visitor).run w proceeds
    x'.office.desk = (Answer.give x.office.desk now visitor).2 ∧
      x'.visits[x.visits.length]?.bind (Visit.response? x'.office) =
        some (Answer.give x.office.desk now visitor).1 := by
  intro proceeds x'
  have hproceeds : x' = { x.visit visitor with
      office := (x.visit visitor).office.run w
        (List.replicate 4 (.proceed x.office.errands.length now)) } :=
    run_work fun m hm => by rw [List.eq_of_mem_replicate hm]; rfl
  have hvisit : x'.visits[x.visits.length]? = _ := visits_run_visit w x visitor proceeds
  rw [hvisit]
  cases hasked : asked? visitor with
  | error response =>
      have hgive : Answer.give x.office.desk now visitor = (response, x.office.desk) := by
        rw [Answer.give, ← asked?, hasked]
      have hoffice : x'.office = x.office := by
        rw [hproceeds, visit_of_error hasked]
        exact office_run_of_no_errand (List.getElem?_eq_none (Nat.le_refl _)) now 4
      rw [hgive, hoffice]
      exact ⟨rfl, rfl⟩
  | ok request =>
      have hgive : Answer.give x.office.desk now visitor =
          (Answer.ofStatus request.locale (x.office.desk.ask now request).1,
            (x.office.desk.ask now request).2) := by
        rw [Answer.give, ← asked?, hasked]
      have hoffice : x'.office = (x.office.come request).run w
          (List.replicate 4 (.proceed x.office.errands.length now)) := by
        rw [hproceeds, visit_of_ok hasked]
      have hanswered := Office.errand_of_ask w x.office request now
      rw [hgive, hoffice]
      refine ⟨Office.desk_of_ask w x.office request now, ?_⟩
      rw [Except.map, Option.bind_some, Visit.response?]
      dsimp only
      rw [hanswered]

/-!
# Runs
-/

/-- The request can be translated, and it was made by somebody who visited. -/
def IsWanted (ms : List Move) (request : Translation.Request) : Prop :=
  request.IsTranslatable ∧ ∃ visitor, .visit visitor ∈ ms ∧ asked? visitor = .ok request

theorem isTranslatable_of_asked? {request : Translation.Request}
    (h : asked? visitor = .ok request) : request.IsTranslatable := by
  rw [asked?] at h
  cases hinquiry : Inquiry.ofRequest visitor with
  | error response =>
      rw [hinquiry] at h
      cases h
  | ok inquiry =>
      rw [hinquiry] at h
      exact Answer.isTranslatable_of_request? h

theorem worksFor_run (w : Windows) (s : Store) (capacity : Nat) (enabled : Bool) (slots : Nat)
    (ms : List Move) :
    ((ofStore s capacity enabled slots).run w ms).office.WorksFor w (IsWanted ms) s := by
  apply run_induction (motive := fun x => x.office.WorksFor w (IsWanted ms) s)
  · exact Office.worksFor_ofStore s capacity enabled slots
  · intro x hx m hm
    cases m with
    | visit visitor =>
        rw [move]
        cases hasked : asked? visitor with
        | error response =>
            rw [visit_of_error hasked]
            exact hx
        | ok request =>
            rw [visit_of_ok hasked]
            apply hx.move (m := .come request)
            rintro _ ⟨⟩
            exact ⟨isTranslatable_of_asked? hasked, visitor, hm, hasked⟩
    | work m =>
        rw [move]
        split
        · exact hx
        · rename_i hnobody
          apply hx.move
          intro r hr
          rw [hr] at hnobody
          exact absurd rfl hnobody
    | lose t => exact { hx with store := hx.store.trans (Store.addsFor_lose _ t) }
    | reopen => exact { hx with store := hx.store.trans ⟨fun _ => Or.inl, fun _ => Or.inl⟩ }

/-- The office works only for requests that visitors made and that can be translated. A visitor who
is ever answered that there is nothing to translate, or that the request is bad, has changed nothing
in the office, then or later. -/
theorem only_translatable_work (w : Windows) (s : Store) (capacity : Nat) (enabled : Bool)
    (slots : Nat) (ms : List Move) :
    let x := (ofStore s capacity enabled slots).run w ms
    x.office.WorksFor w (IsWanted ms) s ∧
      ∀ before visitor after, ms = before ++ .visit visitor :: after →
        let x' := (ofStore s capacity enabled slots).run w before
        ∃ v, x.visits[x'.visits.length]? = some v ∧ v.visitor = visitor ∧
          ∀ response, v.response? x.office = some response →
            response.status = 204 ∨ response.status = 400 →
            (x'.visit visitor).office = x'.office ∧
              x.office = ((ofStore s capacity enabled slots).run w (before ++ after)).office := by
  intro x
  refine ⟨worksFor_run w s capacity enabled slots ms, ?_⟩
  rintro before visitor after rfl x'
  have hrun : x = (x'.visit visitor).run w after := run_append w _ before _
  have hvisit := visits_run_visit w x' visitor after
  rw [← hrun] at hvisit
  refine ⟨_, hvisit, rfl, ?_⟩
  intro response hresponse hstatus
  cases hasked : asked? visitor with
  | error answer =>
      exact ⟨by rw [visit_of_error hasked], office_run_of_error hasked before after⟩
  | ok request =>
      rw [hasked] at hresponse
      have hserved := response?_of_ok rfl hresponse
      rcases hstatus with hnothing | hbad
      · rw [hnothing] at hserved
        exact absurd hserved (by decide)
      · rw [hbad] at hserved
        exact absurd hserved (by decide)

/-- One visitor names a locale, with blanks around it. Another one names none, prefers English, and
comes while the first one's errand is on its way. -/
theorem only_translatable_work_of_two_visits :
    let german : Request := ⟨"POST", "/translation", [("content-type", "application/json")],
      Text.Utf8.encode "\x7b\"text\":\"Hi\",\"locale\":\" de \"\x7d"⟩
    let english : Request := ⟨"POST", "/translation", [("content-type", "application/json"),
      ("accept-language", "fr;q=0.5, EN-us")], Text.Utf8.encode "\x7b\"text\":\"Hi\"\x7d"⟩
    let before : List Move := [.visit german, .work (.proceed 0 5), .work (.proceed 0 5)]
    let after : List Move := [.work (.proceed 0 5), .work .take, .work .start]
    let ms : List Move := before ++ .visit english :: after
    ((ofStore .empty 4 true 1).run {} ms).office.tasks.map (fun t => t.job.request) =
        [⟨"Hi", "de", .markdown, default⟩] ∧
      (∀ t ∈ ((ofStore .empty 4 true 1).run {} ms).office.tasks,
        t.job.request.IsTranslatable) ∧
      ∃ v ∈ ((ofStore .empty 4 true 1).run {} ms).visits, v.visitor = english ∧
        (v.response? ((ofStore .empty 4 true 1).run {} ms).office).map Response.status =
          some 204 ∧
        ((ofStore .empty 4 true 1).run {} ms).office =
          ((ofStore .empty 4 true 1).run {} (before ++ after)).office := by
  intro german english before after ms
  have htasks : ((ofStore .empty 4 true 1).run {} ms).office.tasks.map
      (fun t => t.job.request) = [⟨"Hi", "de", .markdown, default⟩] := by
    decide +kernel
  have hanswer : ((((ofStore .empty 4 true 1).run {} ms).visits[
      ((ofStore .empty 4 true 1).run {} before).visits.length]?).bind
        (Visit.response? ((ofStore .empty 4 true 1).run {} ms).office)).map Response.status =
      some 204 := by
    decide +kernel
  rcases only_translatable_work {} .empty 4 true 1 ms with ⟨hworks, hvisits⟩
  rcases hvisits before english after rfl with ⟨v, hv, hvisitor, hnothing⟩
  rw [hv, Option.bind_some] at hanswer
  rcases Option.map_eq_some_iff.mp hanswer with ⟨response, hresponse, hstatus⟩
  exact ⟨htasks, fun t ht => (hworks.tasks t ht).left, v, List.mem_of_getElem? hv, hvisitor,
    hanswer, (hnothing response hresponse (Or.inl hstatus)).right⟩

end Reception
end Http
end Parley
