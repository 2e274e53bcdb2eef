import Mathlib.Data.List.DropRight
import Parley.Http.Answer

/-!
# What can be asked for

A locale comes from the body of an inquiry or from the languages that its sender
prefers. Either way it is trimmed, and blank ones are left out. An inquiry makes a
request only with such a locale, if that is no English, and with a text that is not
blank.
-/

namespace Parley

/-!
# Trimmed texts
-/

namespace Text

structure IsTrim (cs : List Char) : Prop where
  head : ∀ c, cs.head? = some c → isBlank c = false
  last : ∀ c, cs.getLast? = some c → isBlank c = false

theorem isBlank_head_trimStart {cs : List Char} {c : Char} (h : (trimStart cs).head? = some c) :
    isBlank c = false := by
  have hhead := List.head?_dropWhile_not isBlank cs
  rw [trimStart] at h
  rw [h] at hhead
  exact hhead

theorem isTrim_trim (cs : List Char) : IsTrim (trim cs) where
  head c hc := by
    have hprefix : trim cs <+: trimStart cs := List.rdropWhile_prefix isBlank _
    rcases hprefix with ⟨rest, hrest⟩
    have hstart : (trimStart cs).head? = some c := by
      rw [← hrest, List.head?_append, hc, Option.some_or]
    exact isBlank_head_trimStart hstart
  last c hc := by
    have hlast := List.head?_dropWhile_not isBlank (trimStart cs).reverse
    rw [trim, trimEnd, List.getLast?_reverse] at hc
    rw [hc] at hlast
    exact hlast

end Text

namespace Http

/-!
# Languages
-/

namespace Language

theorem better_eq (best : Option Choice) (next : Choice) :
    better best next = best ∨ better best next = some next := by
  unfold better
  split
  · exact Or.inl rfl
  · split
    · exact Or.inr rfl
    · split
      · exact Or.inr rfl
      · exact Or.inl rfl

theorem mem_of_foldl_better {choices : List Choice} {best : Option Choice} {c : Choice}
    (h : choices.foldl better best = some c) : c ∈ choices ∨ best = some c := by
  induction choices generalizing best with
  | nil => exact Or.inr h
  | cons next rest ih =>
      rcases ih h with hrest | hbest
      · exact Or.inl (List.mem_cons_of_mem next hrest)
      · rcases better_eq best next with hsame | hnext
        · rw [hsame] at hbest
          exact Or.inr hbest
        · rw [hnext] at hbest
          rw [← Option.some.inj hbest]
          exact Or.inl List.mem_cons_self

theorem tag_of_choice? {entry : List Char} {c : Choice} (h : choice? entry = some c) :
    c.tag ≠ [] ∧ Text.IsTrim c.tag := by
  unfold choice? at h
  split at h
  · cases h
  · rename_i tag _ _
    dsimp only at h
    split at h
    · cases h
    · rename_i hempty
      cases h
      exact ⟨fun hnil => hempty (List.isEmpty_iff.mpr hnil), Text.isTrim_trim tag⟩

theorem tag_of_preferred? {value locale : String} (h : preferred? value = some locale) :
    locale.toList ≠ [] ∧ Text.IsTrim locale.toList := by
  rcases Option.map_eq_some_iff.mp h with ⟨c, hbest, rfl⟩
  rcases mem_of_foldl_better hbest with hmem | hnone
  · rcases List.mem_filterMap.mp hmem with ⟨entry, _, hchoice⟩
    rw [String.toList_ofList]
    exact tag_of_choice? hchoice
  · cases hnone

theorem isSource_of_english {locale : String} {a b : Char} {rest : List Char}
    (h : locale.toList = a :: b :: rest) (ha : a = 'e' ∨ a = 'E') (hb : b = 'n' ∨ b = 'N') :
    isSource locale = true := by
  have hlower : (Text.lowerAscii locale).toList = 'e' :: 'n' :: rest.map Char.toLower := by
    rw [Text.lowerAscii, String.toList_ofList, h]
    rcases ha with rfl | rfl <;> rcases hb with rfl | rfl <;> rfl
  have hstarts : Text.startsWith ['e', 'n'] ('e' :: 'n' :: rest.map Char.toLower) = true := by
    simp [Text.startsWith, Text.after?]
  rw [isSource, hlower, hstarts, Bool.or_true]

end Language
end Http

/-!
# Requests that can be translated
-/

structure Translation.Request.IsTranslatable (r : Translation.Request) : Prop where
  text : ∃ c ∈ r.text.toList, Text.isBlank c = false
  locale : r.locale ≠ ""
  trimmed : Text.IsTrim r.locale.toList
  not_any : r.locale ≠ "*"
  not_english : ∀ a b rest, r.locale.toList = a :: b :: rest → a = 'e' ∨ a = 'E' →
    b ≠ 'n' ∧ b ≠ 'N'

namespace Http
namespace Answer

variable {r : Http.Request} {q : Inquiry}

theorem trimmed_of_locale? {locale : String} (h : locale? r q = some locale) :
    locale.toList ≠ [] ∧ Text.IsTrim locale.toList := by
  unfold locale? at h
  split at h
  · rename_i own hown
    cases h
    rcases Option.filter_eq_some_iff.mp hown with ⟨htrimmed, hfull⟩
    rcases Option.map_eq_some_iff.mp htrimmed with ⟨given, _, rfl⟩
    rw [Text.trimmed] at hfull ⊢
    refine ⟨?_, ?_⟩
    · intro hnil
      rw [String.toList_eq_nil_iff.mp hnil] at hfull
      cases hfull
    · rw [String.toList_ofList]
      exact Text.isTrim_trim given.toList
  · rcases Option.bind_eq_some_iff.mp h with ⟨_, _, hpreferred⟩
    exact Language.tag_of_preferred? hpreferred

theorem isTranslatable_of_request? {request : Translation.Request}
    (h : request? r q = .ok request) : request.IsTranslatable := by
  unfold request? at h
  split at h
  · cases h
  · rename_i locale hlocale
    split at h
    · cases h
    · rename_i hblank
      split at h
      · cases h
      · rename_i hsource
        cases h
        rcases trimmed_of_locale? hlocale with ⟨hfull, htrimmed⟩
        refine ⟨?_, ?_, htrimmed, ?_, ?_⟩
        · rw [Text.isAllBlank, Bool.not_eq_true, List.all_eq_false] at hblank
          rcases hblank with ⟨c, hc, hnot⟩
          exact ⟨c, hc, Bool.not_eq_true _ ▸ hnot⟩
        · rintro rfl
          exact hfull rfl
        · rintro rfl
          exact hsource rfl
        · intro a b rest hletters ha
          constructor
          · rintro rfl
            exact hsource (Language.isSource_of_english hletters ha (Or.inl rfl))
          · rintro rfl
            exact hsource (Language.isSource_of_english hletters ha (Or.inr rfl))

end Answer
end Http
end Parley
