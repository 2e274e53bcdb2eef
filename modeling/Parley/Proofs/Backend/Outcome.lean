import Parley.Backend.Client
import Parley.Proofs.Json.Record
import Parley.Proofs.Json.Written

/-!
# What a response comes to

A translation comes of a response only if that is a success which can be read as a
reply, tells no error and has a choice. Everything else is a failure, and which one it
is depends on the status and on the shape of the body alone.
-/

namespace Parley
namespace Backend

open Json

/-!
# Errors
-/

namespace Told

def names : List String :=
  ["code", "message", "type"]

/-- A value that tells an error, of which each field may be missing. -/
structure IsTold (t : Tree) (d : Told) : Prop where
  record : t.IsRecord names
  code : List.Forall₂ (Shape.generic codeRoom) (t.valuesOf names "code") d.code.toList
  message : List.Forall₂ Shape.string (t.valuesOf names "message") d.message.toList
  kind : List.Forall₂ (Shape.Nullable Shape.string) (t.valuesOf names "type") d.kind.toList

def fields : List (RecordField Told) :=
  [⟨"code", Value, Reader.generic codeRoom, Shape.generic codeRoom, Told.code,
      fun d slot => { d with code := slot }⟩,
    ⟨"message", String, Reader.string, Shape.string, Told.message,
      fun d slot => { d with message := slot }⟩,
    ⟨"type", Option String, Reader.option Reader.string, Shape.Nullable Shape.string, Told.kind,
      fun d slot => { d with kind := slot }⟩]

theorem areFilledBy_fields : RecordField.AreFilledBy fields Told.member where
  nodup := by decide
  reads := by
    simp only [fields, List.forall_mem_cons]
    exact ⟨Reader.reads_generic codeRoom, Reader.reads_string, Reader.reads_string.nullable,
      List.forall_mem_nil _⟩
  get_set := by simp [fields]
  get_set_of_ne := by simp [fields]
  ext := by
    rintro ⟨code, message, kind⟩ ⟨code', message', kind'⟩
    simp [fields]
  known := by
    simp only [fields, List.forall_mem_cons]
    exact ⟨fun d t => bind_ok_eq_map, fun d t => bind_ok_eq_map, fun d t => bind_ok_eq_map,
      List.forall_mem_nil _⟩
  other := by
    intro name hname d t
    have hne : name ≠ "code" ∧ name ≠ "message" ∧ name ≠ "type" := by simpa [fields] using hname
    rw [Told.member, if_neg hne.left, if_neg hne.right.left, if_neg hne.right.right]
    exact bind_ok_eq_map

theorem members_eq_ok_iff {ms : List Tree.Member} {ending : Ending} {d : Told} :
    Reader.members Told.member ending {} ms = .ok d ↔ IsTold (.object ms ending) d := by
  rw [areFilledBy_fields.members_eq_ok_iff, RecordField.Reaches]
  simp only [fields, List.forall_mem_cons, Shape.fills_none]
  constructor
  · rintro ⟨hclosed, hnamed, hcode, hmessage, hkind, -⟩
    exact ⟨⟨hclosed, hnamed⟩, hcode, hmessage, hkind⟩
  · rintro ⟨⟨hclosed, hnamed⟩, hcode, hmessage, hkind⟩
    exact ⟨hclosed, hnamed, hcode, hmessage, hkind, List.forall_mem_nil _⟩

theorem row_eq_ok_iff {items : List Tree} {ending : Ending} {d : Told} :
    Reader.row Told.row items ending .malformed = .ok d ↔ IsTold (.array items ending) d := by
  have hfirst := Reader.reads_generic codeRoom
  have hthird := Reader.reads_string.nullable
  rw [Reader.row_eq_ok_iff, Told.row]
  constructor
  · intro hrun
    rcases (Reader.next_bind_eq_ok_iff hfirst 0).mp hrun with ⟨-, code, hcode, hrun⟩
    rcases (Reader.next_bind_eq_ok_iff Reader.reads_string 1).mp hrun
      with ⟨-, message, hmessage, hrun⟩
    rcases (Reader.next_bind_eq_ok_iff hthird 2).mp hrun with ⟨-, kind, hkind, hrun⟩
    injection hrun with hend
    injection hend with hd hrest
    subst hd
    exact ⟨Reader.drop_eq_closed_iff.mp hrest, hcode, hmessage, hkind⟩
  · rintro ⟨⟨hclosed, hlength⟩, hcode, hmessage, hkind⟩
    have hrest := Reader.drop_eq_closed_iff.mpr ⟨hclosed, hlength⟩
    refine (Reader.next_bind_eq_ok_iff hfirst 0).mpr ⟨fun _ => hclosed, d.code, hcode, ?_⟩
    refine (Reader.next_bind_eq_ok_iff Reader.reads_string 1).mpr
      ⟨fun _ => hclosed, d.message, hmessage, ?_⟩
    refine (Reader.next_bind_eq_ok_iff hthird 2).mpr ⟨fun _ => hclosed, d.kind, hkind, ?_⟩
    exact congrArg (fun rest => Except.ok (d, rest)) hrest

theorem reads_reader : Told.reader.Reads IsTold := by
  intro t d
  cases t with
  | object ms ending => exact members_eq_ok_iff
  | array items ending => exact row_eq_ok_iff
  | _ =>
      constructor
      · intro hfault
        cases hfault
      · intro htold
        exact absurd htold.record id

end Told

def IsEnvelope (t : Tree) (d : Told) : Prop :=
  Shape.Single "error" Told.IsTold t (some d)

theorem envelopeReader_eq :
    envelopeReader = Reader.single Told.reader "error" Reader.required := by
  funext t
  cases t <;> rfl

theorem reads_envelopeReader : envelopeReader.Reads IsEnvelope := by
  intro t d
  rw [envelopeReader_eq, Reader.single_eq_ok_iff Told.reads_reader]
  simp only [Reader.required_eq_ok_iff, exists_eq_right]
  exact Iff.rfl

/-!
# Replies
-/

def IsMessage (t : Tree) (content : String) : Prop :=
  ∃ slot, Shape.Single "content" Shape.string t slot ∧ slot.getD "" = content

theorem messageReader_eq :
    messageReader = Reader.single Reader.string "content" fun slot => .ok (slot.getD "") := by
  funext t
  cases t <;> rfl

theorem reads_messageReader : messageReader.Reads IsMessage := by
  intro t content
  rw [messageReader_eq, Reader.single_eq_ok_iff Reader.reads_string]
  simp only [Except.ok.injEq]
  exact Iff.rfl

def IsChoice (t : Tree) (content : String) : Prop :=
  Shape.Single "message" IsMessage t (some content)

theorem choiceReader_eq :
    choiceReader = Reader.single messageReader "message" Reader.required := by
  funext t
  cases t <;> rfl

theorem reads_choiceReader : choiceReader.Reads IsChoice := by
  intro t content
  rw [choiceReader_eq, Reader.single_eq_ok_iff reads_messageReader]
  simp only [Reader.required_eq_ok_iff, exists_eq_right]
  exact Iff.rfl

namespace Reply

def names : List String :=
  ["choices", "error"]

/-- A reply: its choices are a list if they are there, its error may be null. -/
structure IsReply (t : Tree) (r : Reply) : Prop where
  record : t.IsRecord names
  choices : List.Forall₂ (Shape.Items IsChoice) (t.valuesOf names "choices") r.choices.toList
  error : List.Forall₂ (Shape.Nullable Told.IsTold) (t.valuesOf names "error") r.error.toList

def fields : List (RecordField Reply) :=
  [⟨"choices", List String, Reader.list choiceReader, Shape.Items IsChoice, Reply.choices,
      fun r slot => { r with choices := slot }⟩,
    ⟨"error", Option Told, Reader.option Told.reader, Shape.Nullable Told.IsTold, Reply.error,
      fun r slot => { r with error := slot }⟩]

theorem areFilledBy_fields : RecordField.AreFilledBy fields Reply.member where
  nodup := by decide
  reads := by
    simp only [fields, List.forall_mem_cons]
    exact ⟨reads_choiceReader.items, Told.reads_reader.nullable, List.forall_mem_nil _⟩
  get_set := by simp [fields]
  get_set_of_ne := by simp [fields]
  ext := by
    rintro ⟨choices, error⟩ ⟨choices', error'⟩
    simp [fields]
  known := by
    simp only [fields, List.forall_mem_cons]
    exact ⟨fun r t => bind_ok_eq_map, fun r t => bind_ok_eq_map, List.forall_mem_nil _⟩
  other := by
    intro name hname r t
    have hne : name ≠ "choices" ∧ name ≠ "error" := by simpa [fields] using hname
    rw [Reply.member, if_neg hne.left, if_neg hne.right]
    exact bind_ok_eq_map

theorem members_eq_ok_iff {ms : List Tree.Member} {ending : Ending} {r : Reply} :
    Reader.members Reply.member ending {} ms = .ok r ↔ IsReply (.object ms ending) r := by
  rw [areFilledBy_fields.members_eq_ok_iff, RecordField.Reaches]
  simp only [fields, List.forall_mem_cons, Shape.fills_none]
  constructor
  · rintro ⟨hclosed, hnamed, hchoices, herror, -⟩
    exact ⟨⟨hclosed, hnamed⟩, hchoices, herror⟩
  · rintro ⟨⟨hclosed, hnamed⟩, hchoices, herror⟩
    exact ⟨hclosed, hnamed, hchoices, herror, List.forall_mem_nil _⟩

theorem row_eq_ok_iff {items : List Tree} {ending : Ending} {r : Reply} :
    Reader.row Reply.row items ending .malformed = .ok r ↔ IsReply (.array items ending) r := by
  have hfirst := reads_choiceReader.items
  have hsecond := Told.reads_reader.nullable
  rw [Reader.row_eq_ok_iff, Reply.row]
  constructor
  · intro hrun
    rcases (Reader.next_bind_eq_ok_iff hfirst 0).mp hrun with ⟨-, choices, hchoices, hrun⟩
    rcases (Reader.next_bind_eq_ok_iff hsecond 1).mp hrun with ⟨-, error, herror, hrun⟩
    injection hrun with hend
    injection hend with hr hrest
    subst hr
    exact ⟨Reader.drop_eq_closed_iff.mp hrest, hchoices, herror⟩
  · rintro ⟨⟨hclosed, hlength⟩, hchoices, herror⟩
    have hrest := Reader.drop_eq_closed_iff.mpr ⟨hclosed, hlength⟩
    refine (Reader.next_bind_eq_ok_iff hfirst 0).mpr ⟨fun _ => hclosed, r.choices, hchoices, ?_⟩
    refine (Reader.next_bind_eq_ok_iff hsecond 1).mpr ⟨fun _ => hclosed, r.error, herror, ?_⟩
    exact congrArg (fun rest => Except.ok (r, rest)) hrest

theorem reads_reader : Reply.reader.Reads IsReply := by
  intro t r
  cases t with
  | object ms ending => exact members_eq_ok_iff
  | array items ending => exact row_eq_ok_iff
  | _ =>
      constructor
      · intro hfault
        cases hfault
      · intro hreply
        exact absurd hreply.record id

variable {r : Reply}

def IsHarmless (r : Reply) : Prop :=
  r.error = none ∨ r.error = some none

theorem content_of_told {d : Told} (h : r.error = some (some d)) :
    r.content = .error d.toFailure := by
  rw [content, h]
  rfl

theorem content_of_chosen (h : r.IsHarmless) {first : String} {rest : List String}
    (hchoices : r.choices = some (first :: rest)) : r.content = .ok first := by
  rcases h with h | h <;> rw [content, h, hchoices] <;> rfl

theorem content_of_none (h : r.IsHarmless) (hchoices : r.choices = none ∨ r.choices = some []) :
    r.content = .error .empty := by
  rcases h with h | h <;> rcases hchoices with hc | hc <;> rw [content, h, hc] <;> rfl

theorem told_or_isHarmless (r : Reply) : (∃ d, r.error = some (some d)) ∨ r.IsHarmless := by
  rcases herror : r.error with _ | _ | d
  · exact .inr (.inl herror)
  · exact .inr (.inr herror)
  · exact .inl ⟨d, rfl⟩

theorem chosen_or_none (r : Reply) :
    (∃ first rest, r.choices = some (first :: rest)) ∨
      (r.choices = none ∨ r.choices = some []) := by
  rcases r.choices with _ | _ | ⟨first, rest⟩
  · exact .inr (.inl rfl)
  · exact .inr (.inr rfl)
  · exact .inl ⟨first, rest, rfl⟩

end Reply

/-!
# Outcomes
-/

/-- How the code of an error is told: a string as it is, other values as they are written, and
nothing where there is no code or a null. -/
inductive Told.IsCodeText : Option Value → String → Prop
  | absent : IsCodeText none ""
  | null : IsCodeText (some .null) ""
  | string (s : String) : IsCodeText (some (.string s)) s
  | other {v : Value} (hnull : v ≠ .null) (hstring : ∀ s, v ≠ .string s) :
      IsCodeText (some v) v.write

theorem Told.codeText_eq_iff {code : Option Value} {text : String} :
    codeText code = text ↔ IsCodeText code text := by
  constructor
  · rintro rfl
    rcases code with _ | v
    · exact .absent
    · cases v with
      | null => exact .null
      | string s => exact .string s
      | bool | number | array | object => exact .other nofun nofun
  · intro h
    cases h with
    | absent | null | string => rfl
    | @other v hnull hstring =>
        cases v with
        | null => exact absurd rfl hnull
        | string s => exact absurd rfl (hstring s)
        | bool | number | array | object => rfl

/-- What a response comes to, by its status and the shape of its body. -/
inductive Outcome (mode : Config.Mode) (locale : String) (response : Response) :
    Except Failure String → Prop
  | translated {r : Reply} {first : String} {rest : List String}
      (success : 200 ≤ response.status ∧ response.status ≤ 299)
      (reply : Shape.IsWritten Reply.IsReply response.body r) (harmless : r.IsHarmless)
      (chosen : r.choices = some (first :: rest)) :
      Outcome mode locale response (.ok (meant mode locale first))
  | empty {r : Reply} (success : 200 ≤ response.status ∧ response.status ≤ 299)
      (reply : Shape.IsWritten Reply.IsReply response.body r) (harmless : r.IsHarmless)
      (unchosen : r.choices = none ∨ r.choices = some []) :
      Outcome mode locale response (.error .empty)
  | told {r : Reply} {d : Told} {code : String}
      (success : 200 ≤ response.status ∧ response.status ≤ 299)
      (reply : Shape.IsWritten Reply.IsReply response.body r) (error : r.error = some (some d))
      (rendered : Told.IsCodeText d.code code) :
      Outcome mode locale response
        (.error (.told code (d.message.getD "") ((d.kind.bind id).getD "")))
  | unreadable (success : 200 ≤ response.status ∧ response.status ≤ 299)
      (unread : ∀ r, ¬ Shape.IsWritten Reply.IsReply response.body r) :
      Outcome mode locale response (.error .unreadable)
  | refused {d : Told} {code : String}
      (failure : ¬ (200 ≤ response.status ∧ response.status ≤ 299))
      (envelope : Shape.IsWritten IsEnvelope response.body d)
      (rendered : Told.IsCodeText d.code code) :
      Outcome mode locale response
        (.error (.told code (d.message.getD "") ((d.kind.bind id).getD "")))
  | failed {kept : String} (failure : ¬ (200 ≤ response.status ∧ response.status ≤ 299))
      (unread : ∀ d, ¬ Shape.IsWritten IsEnvelope response.body d)
      (front : kept.toList = response.body.toList.take 512) :
      Outcome mode locale response (.error (.status response.status kept))

variable {mode : Config.Mode} {locale : String} {response : Response}

theorem isSuccess_iff {status : Nat} : isSuccess status = true ↔ 200 ≤ status ∧ status ≤ 299 := by
  simp [isSuccess]

theorem translationOf_of_reply {r : Reply}
    (hsuccess : 200 ≤ response.status ∧ response.status ≤ 299)
    (hreply : Shape.IsWritten Reply.IsReply response.body r) :
    translationOf mode locale response.status response.body =
      r.content.map (meant mode locale) := by
  rw [translationOf, contentOf, if_pos (isSuccess_iff.mpr hsuccess),
    (decode_eq_ok_iff Reply.reads_reader).mpr hreply]

theorem translationOf_of_unreadable (hsuccess : 200 ≤ response.status ∧ response.status ≤ 299)
    (hunread : ∀ r, ¬ Shape.IsWritten Reply.IsReply response.body r) :
    translationOf mode locale response.status response.body = .error .unreadable := by
  rw [translationOf, contentOf, if_pos (isSuccess_iff.mpr hsuccess)]
  cases hdecode : decode Reply.reader response.body with
  | error fault => rfl
  | ok r => exact absurd ((decode_eq_ok_iff Reply.reads_reader).mp hdecode) (hunread r)

theorem translationOf_of_envelope {d : Told}
    (hfailure : ¬ (200 ≤ response.status ∧ response.status ≤ 299))
    (henvelope : Shape.IsWritten IsEnvelope response.body d) :
    translationOf mode locale response.status response.body = .error d.toFailure := by
  rw [translationOf, contentOf, if_neg (mt isSuccess_iff.mp hfailure),
    (decode_eq_ok_iff reads_envelopeReader).mpr henvelope]
  rfl

theorem translationOf_of_failure (hfailure : ¬ (200 ≤ response.status ∧ response.status ≤ 299))
    (hunread : ∀ d, ¬ Shape.IsWritten IsEnvelope response.body d) :
    translationOf mode locale response.status response.body =
      .error (.status response.status (String.ofList (response.body.toList.take 512))) := by
  rw [translationOf, contentOf, if_neg (mt isSuccess_iff.mp hfailure)]
  cases hdecode : decode envelopeReader response.body with
  | error fault => rfl
  | ok d => exact absurd ((decode_eq_ok_iff reads_envelopeReader).mp hdecode) (hunread d)

theorem Outcome.eq {result : Except Failure String} (h : Outcome mode locale response result) :
    translationOf mode locale response.status response.body = result := by
  cases h with
  | translated success reply harmless chosen =>
      rw [translationOf_of_reply success reply, Reply.content_of_chosen harmless chosen]
      rfl
  | empty success reply harmless unchosen =>
      rw [translationOf_of_reply success reply, Reply.content_of_none harmless unchosen]
      rfl
  | told success reply error rendered =>
      rw [translationOf_of_reply success reply, Reply.content_of_told error, Told.toFailure,
        Told.codeText_eq_iff.mpr rendered]
      rfl
  | unreadable success unread => exact translationOf_of_unreadable success unread
  | refused failure envelope rendered =>
      rw [translationOf_of_envelope failure envelope, Told.toFailure,
        Told.codeText_eq_iff.mpr rendered]
  | failed failure unread front =>
      rw [translationOf_of_failure failure unread, ← front, String.ofList_toList]

theorem exists_outcome (mode : Config.Mode) (locale : String) (response : Response) :
    ∃ result, Outcome mode locale response result := by
  by_cases hsuccess : 200 ≤ response.status ∧ response.status ≤ 299
  · by_cases hreply : ∃ r, Shape.IsWritten Reply.IsReply response.body r
    · rcases hreply with ⟨r, hreply⟩
      rcases r.told_or_isHarmless with ⟨d, herror⟩ | hharmless
      · exact ⟨_, .told hsuccess hreply herror (Told.codeText_eq_iff.mp rfl)⟩
      · rcases r.chosen_or_none with ⟨first, rest, hchosen⟩ | hnone
        · exact ⟨_, .translated hsuccess hreply hharmless hchosen⟩
        · exact ⟨_, .empty hsuccess hreply hharmless hnone⟩
    · exact ⟨_, .unreadable hsuccess (not_exists.mp hreply)⟩
  · by_cases henvelope : ∃ d, Shape.IsWritten IsEnvelope response.body d
    · rcases henvelope with ⟨d, henvelope⟩
      exact ⟨_, .refused hsuccess henvelope (Told.codeText_eq_iff.mp rfl)⟩
    · exact ⟨_, .failed hsuccess (not_exists.mp henvelope) String.toList_ofList⟩

namespace Client

variable {c : Client} {transport : Transport} {chunk : String} {markup : Markup}

/-- A response comes to its outcome and to nothing else. In particular only a success that is read
as a reply without an error makes a translation, and that of its first choice alone. -/
theorem translate_eq_iff_outcome
    (hresponse : (c.delivery? chunk locale markup).bind transport = some response)
    (result : Except Failure String) :
    c.translate transport chunk locale markup = result ↔ Outcome c.mode locale response result := by
  rw [translate, hresponse]
  constructor
  · rintro rfl
    rcases exists_outcome c.mode locale response with ⟨result, h⟩
    show Outcome c.mode locale response (translationOf c.mode locale response.status response.body)
    rw [h.eq]
    exact h
  · intro h
    exact h.eq

/-- A success that tells an error beside its choice is no translation. -/
theorem translate_eq_iff_outcome_of_error_beside_choice :
    let message : Value := .object [("content", .string "Hallo")]
    let body : Value :=
      .object [("choices", .array [.object [("message", message)]]),
        ("error", .object [("code", .string "busy"), ("message", .string "no"), ("type", .null)])]
    let c : Client := ⟨"http://u", "m", .chat, none⟩
    let transport : Transport := fun _ => some ⟨200, body.write⟩
    (c.delivery? "Hello" "de" .plain).bind transport = some ⟨200, body.write⟩ ∧
      c.translate transport "Hello" "de" .plain = .error (.told "busy" "no" "") := by
  intro message body c transport
  let d : Told := ⟨some (.string "busy"), some "no", some none⟩
  have hreply : Shape.IsWritten Reply.IsReply body.write ⟨some ["Hallo"], some (some d)⟩ := by
    rw [← decode_eq_ok_iff Reply.reads_reader, decode_write]
    rfl
  have hresponse : (c.delivery? "Hello" "de" .plain).bind transport = some ⟨200, body.write⟩ := rfl
  have houtcome : Outcome .chat "de" ⟨200, body.write⟩ (.error d.toFailure) :=
    .told ⟨by decide, by decide⟩ hreply rfl (.string "busy")
  exact ⟨hresponse, (translate_eq_iff_outcome hresponse _).mpr houtcome⟩

end Client
end Backend
end Parley
