import Parley.Proofs.Translation.WholeEntries

/-!
# Whose translations are served

What is hashed for a request is its text and its locale, one after the other. As long as
the hash tells these strings apart, a request is served what was translated for a request
with the same string, and requests with other strings make no difference to it. Nothing
marks the seam between text and locale, though: a string cut at two places makes two
requests, and one of them is served what was translated for the other.
-/

namespace Parley

/-!
# Bytes of strings
-/

namespace Text
namespace Utf8

theorem toList_loop (bs : ByteArray) (i : Nat) (r : List UInt8) :
    ByteArray.toList.loop bs i r = r.reverse ++ bs.data.toList.drop i := by
  induction i, r using ByteArray.toList.loop.induct bs with
  | case1 i r hlt ih =>
      have hdrop : bs.data.toList.drop i = bs.get! i :: bs.data.toList.drop (i + 1) := by
        rw [List.drop_eq_getElem_cons hlt]
        congr 1
        exact (getElem!_pos bs.data i hlt).symm
      rw [ByteArray.toList.loop, if_pos hlt, ih, List.reverse_cons, hdrop, List.append_assoc]
      rfl
  | case2 i r hle =>
      rw [ByteArray.toList.loop, if_neg hle, List.drop_eq_nil_of_le (Nat.le_of_not_lt hle),
        List.append_nil]

theorem encode_eq (s : String) : encode s = s.toByteArray.data.toList :=
  toList_loop s.toByteArray 0 []

theorem encode_append (s t : String) : encode (s ++ t) = encode s ++ encode t := by
  rw [encode_eq, encode_eq, encode_eq, String.toByteArray_append, ByteArray.data_append,
    Array.toList_append]

theorem encode_inj {s t : String} : encode s = encode t ↔ s = t := by
  rw [encode_eq, encode_eq, Array.toList_inj, ← ByteArray.ext_iff, String.toByteArray_inj]

end Utf8
end Text

namespace Translation

/-!
# What is hashed
-/

namespace Request

def bytes (r : Request) : List UInt8 :=
  Text.Utf8.encode r.text ++ Text.Utf8.encode r.locale

def joined (r : Request) : String :=
  r.text ++ r.locale

/-- The hash tells apart all that is hashed for these requests. -/
def NoCollision (rs : List Request) : Prop :=
  ∀ r ∈ rs, ∀ r' ∈ rs, Digest.Blake3.hash r.bytes = Digest.Blake3.hash r'.bytes →
    r.bytes = r'.bytes

instance (rs : List Request) : Decidable (NoCollision rs) :=
  inferInstanceAs (Decidable (∀ r ∈ rs, ∀ r' ∈ rs, _ → _))

theorem bytes_eq_iff {r r' : Request} : r.bytes = r'.bytes ↔ r.joined = r'.joined := by
  rw [bytes, bytes, ← Text.Utf8.encode_append, ← Text.Utf8.encode_append, Text.Utf8.encode_inj]
  rfl

theorem NoCollision.joined_eq {rs : List Request} (h : NoCollision rs) {r r' : Request}
    (hr : r ∈ rs) (hr' : r' ∈ rs) (hkey : r.key = r'.key) : r.joined = r'.joined :=
  bytes_eq_iff.mp (h r hr r' hr' (congrArg ContentKey.bytes hkey))

/-- Whoever asks for the same string asks for the same text in the same locale. -/
def IsOnlyCut (r : Request) (rs : List Request) : Prop :=
  ∀ q ∈ rs, q.joined = r.joined → q.text = r.text ∧ q.locale = r.locale

instance (r : Request) (rs : List Request) : Decidable (r.IsOnlyCut rs) :=
  inferInstanceAs (Decidable (∀ q ∈ rs, _ → _))

/-!
# What the backend makes of a request
-/

def translated (w : Windows) (backend : String → String → Markup → Reply) (r : Request) : Reply :=
  let document := Document.ofText r.markup (w.of r.markup) r.text
  (document.chunks.mapM fun chunk => backend chunk r.locale r.markup).map document.reassemble

end Request

theorem mapM_eq_ok {ε α β : Type} {f : α → Except ε β} {xs : List α} {ys : List β}
    (h : xs.map f = ys.map .ok) : xs.mapM f = .ok ys := by
  induction xs generalizing ys with
  | nil =>
      cases ys with
      | nil => rfl
      | cons y ys => cases h
  | cons x xs ih =>
      cases ys with
      | nil => cases h
      | cons y ys =>
          rw [List.map_cons, List.map_cons, List.cons.injEq] at h
          rw [List.mapM_cons, h.left, ih h.right]
          rfl

variable {w : Windows} {backend : String → String → Markup → Reply}

/-- The backend that answered looks at nothing but the chunk, the locale and the markup. -/
def Office.IsAnsweredBy (o : Office) (backend : String → String → Markup → Reply) : Prop :=
  ∀ a ∈ o.answers, a.2 = backend a.1.chunk a.1.locale a.1.markup

instance (o : Office) (backend : String → String → Markup → Reply) :
    Decidable (o.IsAnsweredBy backend) :=
  inferInstanceAs (Decidable (∀ a ∈ o.answers, _ = _))

theorem Job.HasAll.translated_eq {o : Office} {j : Job} {outputs : List String}
    (h : j.HasAll w o.answers outputs) (hbackend : o.IsAnsweredBy backend) :
    j.request.translated w backend = .ok ((j.document w).reassemble outputs) := by
  have hreplies : (j.document w).chunks.map (backend · j.request.locale j.request.markup) =
      outputs.map .ok := by
    apply List.ext_getElem
    · rw [List.length_map, List.length_map, h.length_eq]
    · intro i hi hi'
      rw [List.getElem_map, List.getElem_map]
      rw [List.length_map] at hi hi'
      exact (hbackend _ (h.recorded i _ _ (List.getElem?_eq_getElem hi)
        (List.getElem?_eq_getElem hi'))).symm
  have houtputs : (j.document w).chunks.mapM (backend · j.request.locale j.request.markup) =
      .ok outputs :=
    mapM_eq_ok hreplies
  show ((j.document w).chunks.mapM (backend · j.request.locale j.request.markup)).map
    (j.document w).reassemble = _
  rw [houtputs]
  rfl

def Errand.served? (e : Errand) : Option (String × Markup) :=
  match e.stage with
  | .answered (.ok (.ready content markup)) => some (content, markup)
  | _ => none

theorem Errand.stage_of_served {e : Errand} {content : String} {markup : Markup}
    (h : e.served? = some (content, markup)) :
    e.stage = .answered (.ok (.ready content markup)) := by
  rw [served?] at h
  split at h
  · rename_i hstage
    cases h
    exact hstage
  · cases h

namespace Office

/-!
# Where answers come from
-/

def IsMadeFor (w : Windows) (o : Office) (r : Request) (content : String) (markup : Markup) :
    Prop :=
  ∃ (token : Token) (outputs : List String), Job.HasAll w o.answers ⟨token, r⟩ outputs ∧
    content = (Job.document w ⟨token, r⟩).reassemble outputs ∧ markup = r.markup

theorem isMadeFor_of_served {o : Office} (htraced : o.IsTraced w) (htells : o.TellsCached)
    {e : Errand} (he : e ∈ o.errands) {content : String} {markup : Markup}
    (hserved : e.served? = some (content, markup)) :
    ∃ r ∈ o.requests, r.key = e.request.key ∧ o.IsMadeFor w r content markup := by
  rcases htells e he content markup (Errand.stage_of_served hserved) with ⟨entry, hget, rfl, rfl⟩
  rcases (Store.get_eq_some_iff htraced.whole).mp hget with ⟨row, hrow, hentry⟩
  rcases htraced.rows _ row hrow with ⟨entry', rfl, hkey, ⟨token, r⟩, outputs, hcame, hall,
    hmade, hcontent, _, hmarkup, _⟩
  rw [Row.toEntry_ofEntry] at hentry
  cases hentry
  exact ⟨r, hcame, hmade.symm.trans hkey, token, outputs, hall, hcontent, hmarkup⟩

theorem isMadeFor_same_joined {capacity : Nat} {enabled : Bool} {slots : Nat} {ms : List Move}
    (hhash : Request.NoCollision (ms.filterMap Move.request?)) {e : Errand}
    (he : e ∈ ((ofCache .empty capacity enabled slots).run w ms).errands) {content : String}
    {markup : Markup} (hserved : e.served? = some (content, markup)) :
    ∃ r ∈ ms.filterMap Move.request?, r.joined = e.request.joined ∧
      ((ofCache .empty capacity enabled slots).run w ms).IsMadeFor w r content markup := by
  have hrequests : ((ofCache .empty capacity enabled slots).run w ms).requests =
      ms.filterMap Move.request? := by
    rw [requests_run]
    rfl
  rcases traced_run w capacity enabled slots ms with ⟨htraced, htells⟩
  rcases isMadeFor_of_served htraced htells he hserved with ⟨r, hr, hkey, hmade⟩
  have hasked : e.request ∈ requests _ := List.mem_map_of_mem he
  rw [hrequests] at hr hasked
  exact ⟨r, hr, hhash.joined_eq hr hasked hkey, hmade⟩

theorem IsMadeFor.translated_eq {o : Office} {r : Request} {content : String} {markup : Markup}
    (h : o.IsMadeFor w r content markup) (hbackend : o.IsAnsweredBy backend) :
    r.translated w backend = .ok content := by
  rcases h with ⟨token, outputs, hall, rfl, _⟩
  exact hall.translated_eq hbackend

/-- A request is served what was made for a request with the same joined string, which is one for
the same text and locale unless that string was cut elsewhere too. Requests with other strings have
no influence on what it is served. -/
theorem served_from_same_joined (w : Windows) (capacity : Nat) (enabled : Bool) (slots : Nat)
    (ms : List Move) (hhash : Request.NoCollision (ms.filterMap Move.request?)) :
    let o := (ofCache .empty capacity enabled slots).run w ms
    ∀ e ∈ o.errands, ∀ content markup, e.served? = some (content, markup) →
      (∃ r ∈ ms.filterMap Move.request?, r.joined = e.request.joined ∧
        o.IsMadeFor w r content markup ∧
        (e.request.IsOnlyCut (ms.filterMap Move.request?) →
          r.text = e.request.text ∧ r.locale = e.request.locale) ∧
        ∀ backend, o.IsAnsweredBy backend → r.translated w backend = .ok content) ∧
      ∀ capacity' enabled' slots' (ms' : List Move),
        Request.NoCollision (ms'.filterMap Move.request?) →
        let o' := (ofCache .empty capacity' enabled' slots').run w ms'
        ∀ backend, o.IsAnsweredBy backend → o'.IsAnsweredBy backend →
          (∀ q ∈ ms.filterMap Move.request? ++ ms'.filterMap Move.request?,
            q.joined = e.request.joined → q.text = e.request.text ∧
              q.locale = e.request.locale ∧ q.markup = e.request.markup) →
          ∀ e' ∈ o'.errands, e'.request.joined = e.request.joined →
            e'.served? = none ∨ e'.served? = some (content, markup) := by
  intro o e he content markup hserved
  rcases isMadeFor_same_joined hhash he hserved with ⟨r, hr, hjoined, hmade⟩
  refine ⟨⟨r, hr, hjoined, hmade, fun honly => honly r hr hjoined,
    fun backend hbackend => hmade.translated_eq hbackend⟩, ?_⟩
  intro capacity' enabled' slots' ms' hhash' o' backend hbackend hbackend' honly e' he' hsame
  cases hserved' : e'.served? with
  | none => exact Or.inl rfl
  | some served =>
      rcases served with ⟨content', markup'⟩
      rcases isMadeFor_same_joined hhash' he' hserved' with ⟨r', hr', hjoined', hmade'⟩
      rcases honly r (List.mem_append_left _ hr) hjoined with ⟨htext, hlocale, hmarkup⟩
      rcases honly r' (List.mem_append_right _ hr') (hjoined'.trans hsame)
        with ⟨htext', hlocale', hmarkup'⟩
      have htranslated : r.translated w backend = r'.translated w backend := by
        unfold Request.translated
        rw [htext, htext', hlocale, hlocale', hmarkup, hmarkup']
      rw [hmade.translated_eq hbackend, hmade'.translated_eq hbackend'] at htranslated
      cases htranslated
      rcases hmade with ⟨_, _, _, _, rfl⟩
      rcases hmade' with ⟨_, _, _, _, rfl⟩
      rw [hmarkup, hmarkup']
      exact Or.inr rfl

/-- A request is served its own translation, and the same one when nobody asks for the other. -/
theorem served_from_same_joined_of_two_texts :
    let hi : Request := ⟨"Hi", "de", .plain, .summary⟩
    let bye : Request := ⟨"Bye", "de", .plain, .summary⟩
    let work : List Move :=
      [.take, .start, .call 0 5, .call 0 5, .post 0 0, .hear 0 0 (.ok "Hallo"), .call 0 6]
    let ms := [.come hi, .come bye, .proceed 0 5, .proceed 0 5, .proceed 0 5, .proceed 1 5] ++
      work ++ [.come hi, .proceed 2 7]
    let ms' := [.come hi, .proceed 0 5, .proceed 0 5, .proceed 0 5] ++ work ++
      [.come hi, .proceed 1 7]
    let backend (chunk _ : String) (_ : Markup) : Reply :=
      if chunk = "Hi" then .ok "Hallo" else .error .empty
    ((ofCache .empty 1 true 1).run {} ms).IsAnsweredBy backend ∧
      ((ofCache .empty 1 true 1).run {} ms').IsAnsweredBy backend ∧
      ∃ e ∈ ((ofCache .empty 1 true 1).run {} ms).errands,
        e.request = hi ∧ e.served? = some ("Hallo", .plain) ∧
          (∃ r ∈ [hi, bye, hi], r.text = "Hi" ∧ r.locale = "de" ∧
            ((ofCache .empty 1 true 1).run {} ms).IsMadeFor {} r "Hallo" .plain) ∧
          ∀ e' ∈ ((ofCache .empty 1 true 1).run {} ms').errands,
            e'.request.joined = hi.joined →
              e'.served? = none ∨ e'.served? = some ("Hallo", .plain) := by
  intro hi bye work ms ms' backend
  have hrun : ((ofCache .empty 1 true 1).run {} ms).errands[2]?.map
        (fun e => (e.request, e.served?)) = some (hi, some ("Hallo", .plain)) ∧
      ((ofCache .empty 1 true 1).run {} ms).IsAnsweredBy backend := by
    decide +kernel
  have hbackend' : ((ofCache .empty 1 true 1).run {} ms').IsAnsweredBy backend := by
    decide +kernel
  have hhash : Request.NoCollision [hi, bye, hi] := by decide +kernel
  have hhash' : Request.NoCollision [hi, hi] := by
    have hall : ∀ r ∈ [hi, hi], r = hi := by decide
    intro r hr r' hr' _
    rw [hall r hr, hall r' hr']
  rcases hrun with ⟨hserved, hbackend⟩
  rcases Option.map_eq_some_iff.mp hserved with ⟨e, he, hsays⟩
  rcases Prod.mk.inj hsays with ⟨hrequest, hanswer⟩
  rcases served_from_same_joined {} 1 true 1 ms hhash e (List.mem_of_getElem? he) _ _ hanswer
    with ⟨⟨r, hr, _, hmade, honly, _⟩, hothers⟩
  rw [hrequest] at honly hothers
  rcases honly (by decide) with ⟨htext, hlocale⟩
  have hsame := hothers 1 true 1 ms' hhash' backend hbackend hbackend' (by decide)
  exact ⟨hbackend, hbackend', e, List.mem_of_getElem? he, hrequest, hanswer,
    ⟨r, hr, htext, hlocale, hmade⟩, hsame⟩

/-- Of two requests that cut one string at different places the second is served the translation of
the first, though nothing was translated for it. -/
theorem served_across_the_seam :
    let first : Request := ⟨"ab", "c", .plain, .summary⟩
    let second : Request := ⟨"a", "bc", .plain, .summary⟩
    let ms : List Move :=
      [.come first, .proceed 0 5, .proceed 0 5, .proceed 0 5, .take, .start, .call 0 5, .call 0 5,
        .post 0 0, .hear 0 0 (.ok "xyz"), .call 0 6, .come second, .proceed 1 7]
    Request.NoCollision [first, second] ∧
      ∃ e ∈ ((ofCache .empty 1 true 1).run {} ms).errands,
        e.request = second ∧ e.served? = some ("xyz", .plain) ∧
          ∀ (r : Request) markup, r.text = "a" → r.locale = "bc" →
            ¬ ((ofCache .empty 1 true 1).run {} ms).IsMadeFor {} r "xyz" markup := by
  intro first second ms
  have hrun : ((ofCache .empty 1 true 1).run {} ms).errands[1]?.map
        (fun e => (e.request, e.served?)) = some (second, some ("xyz", .plain)) ∧
      ∀ a ∈ ((ofCache .empty 1 true 1).run {} ms).answers, a.1.locale = "c" := by
    decide +kernel
  rcases hrun with ⟨hserved, hlocales⟩
  have hjoined : ∀ r ∈ [first, second], r.joined = "abc" := by decide
  have hhash : Request.NoCollision [first, second] := by
    intro r hr r' hr' _
    exact Request.bytes_eq_iff.mpr ((hjoined r hr).trans (hjoined r' hr').symm)
  rcases Option.map_eq_some_iff.mp hserved with ⟨e, he, hsays⟩
  rcases Prod.mk.inj hsays with ⟨hrequest, hanswer⟩
  refine ⟨hhash, e, List.mem_of_getElem? he, hrequest, hanswer, ?_⟩
  rintro ⟨text, locale, kind, part⟩ markup rfl rfl ⟨token, outputs, hall, _, _⟩
  have hchunks : (Document.ofText kind (Windows.of {} kind) "a").chunks = ["a"] := by
    cases kind <;> decide +kernel
  have hlength : outputs.length = 1 := by
    rw [hall.length_eq]
    exact congrArg List.length hchunks
  rcases List.length_eq_one_iff.mp hlength with ⟨output, rfl⟩
  have hrecorded := hall.recorded 0 "a" output (congrArg (·[0]?) hchunks) rfl
  have hlocale : "bc" = "c" := hlocales _ hrecorded
  exact absurd hlocale (by decide)

end Office
end Translation
end Parley
