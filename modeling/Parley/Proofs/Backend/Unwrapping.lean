import Mathlib.Data.List.DropRight
import Parley.Backend.Reply

/-!
# Wrapped replies

A translation that came in a block marked with its locale, or behind the locale, is
told from its wrapping without loss. What counts as such a block is seen from the
first characters alone, so a block of code keeps its fences only if the name of its
language, with what follows, does not begin as the locale does.
-/

namespace Parley

/-!
# Leads and tails
-/

namespace Text

variable {lead cs rest blanks : List Char}

theorem after?_eq_some_iff : after? lead cs = some rest ↔ cs = lead ++ rest := by
  induction lead generalizing cs with
  | nil => cases cs <;> simp [after?, eq_comm]
  | cons a lead ih =>
      cases cs with
      | nil => simp [after?]
      | cons c cs =>
          rw [after?, List.cons_append, List.cons.injEq]
          by_cases ha : a = c
          · rw [if_pos ha, ih]
            exact (and_iff_right ha.symm).symm
          · rw [if_neg ha]
            constructor
            · intro h
              cases h
            · intro h
              exact absurd h.left.symm ha

theorem after?_append (lead rest : List Char) : after? lead (lead ++ rest) = some rest :=
  after?_eq_some_iff.mpr rfl

theorem after?_eq_none (h : ¬ lead <+: cs) : after? lead cs = none := by
  cases hafter : after? lead cs with
  | none => rfl
  | some rest => exact absurd ⟨rest, (after?_eq_some_iff.mp hafter).symm⟩ h

theorem trimEnd_append_blanks (h : ∀ c ∈ blanks, isBlank c = true) :
    trimEnd (cs ++ blanks) = trimEnd cs := by
  have hreversed : ∀ c ∈ blanks.reverse, isBlank c = true := fun c hc =>
    h c (List.mem_reverse.mp hc)
  rw [trimEnd, trimEnd, List.reverse_append, List.dropWhile_append_of_pos hreversed]

theorem trimEnd_isPrefix (cs : List Char) : trimEnd cs <+: cs :=
  List.rdropWhile_prefix isBlank _

end Text

namespace Backend

variable {locale cs text tail inner : List Char}

theorem before?_eq_some_iff : before? tail cs = some inner ↔ cs = inner ++ tail := by
  rw [before?, Option.map_eq_some_iff]
  constructor
  · rintro ⟨back, hback, rfl⟩
    rw [Text.after?_eq_some_iff, List.reverse_eq_iff, List.reverse_append,
      List.reverse_reverse] at hback
    exact hback
  · rintro rfl
    have hback : Text.after? tail.reverse (inner ++ tail).reverse = some inner.reverse := by
      rw [List.reverse_append, Text.after?_append]
    exact ⟨inner.reverse, hback, inner.reverse_reverse⟩

/-!
# Fences
-/

def backquote : Char :=
  Char.ofNat 96

theorem toList_fence : "```".toList = fence := by
  decide

theorem toList_fence_line : "\n```".toList = '\n' :: fence := by
  decide

theorem trimEnd_append_fence (cs : List Char) : Text.trimEnd (cs ++ fence) = cs ++ fence := by
  have hback : (cs ++ fence).reverse = backquote :: (cs ++ [backquote, backquote]).reverse := by
    simp [fence, backquote, List.replicate]
  rw [Text.trimEnd, hback, List.dropWhile_cons_of_neg (by decide), ← hback, List.reverse_reverse]

theorem unfence_eq {blanks : List Char} (hblanks : ∀ c ∈ blanks, Text.isBlank c = true)
    (hline : dropNewline cs = inner ++ '\n' :: fence ++ blanks) : unfence cs = inner := by
  have htrimmed : Text.trimEnd (dropNewline cs) = inner ++ '\n' :: fence := by
    rw [hline, Text.trimEnd_append_blanks hblanks, List.append_cons, trimEnd_append_fence]
  have hinner : before? ('\n' :: fence) (inner ++ '\n' :: fence) = some inner :=
    before?_eq_some_iff.mpr rfl
  simp only [unfence, htrimmed, hinner]

theorem dropNewline_cons {c : Char} (hc : c ≠ '\n') (cs : List Char) :
    dropNewline (c :: cs) = c :: cs := by
  simp [dropNewline, hc]

theorem dropNewline_isSuffix (cs : List Char) : dropNewline cs <:+ cs := by
  cases cs with
  | nil => exact List.suffix_refl []
  | cons c cs =>
      by_cases hc : c = '\n'
      · rw [hc]
        exact List.suffix_cons '\n' cs
      · exact ⟨[], dropNewline_cons hc cs⟩

theorem isPrefix_of_before? (h : before? tail cs = some inner) : inner <+: cs :=
  ⟨tail, (before?_eq_some_iff.mp h).symm⟩

theorem unfence_isInfix (cs : List Char) : unfence cs <:+: cs := by
  have htrimmed : Text.trimEnd (dropNewline cs) <:+: cs :=
    (Text.trimEnd_isPrefix _).isInfix.trans (dropNewline_isSuffix cs).isInfix
  rw [unfence]
  cases hline : before? ('\n' :: fence) (Text.trimEnd (dropNewline cs)) with
  | some inner => exact (isPrefix_of_before? hline).isInfix.trans htrimmed
  | none =>
      cases hclose : before? fence (Text.trimEnd (dropNewline cs)) with
      | some inner => exact (isPrefix_of_before? hclose).isInfix.trans htrimmed
      | none => exact htrimmed

/-!
# Unwrapping
-/

theorem unwrap_eq (hlocale : locale ≠ []) :
    unwrap locale cs =
      (Text.after? locale (unwrapFence locale cs)).getD (unwrapFence locale cs) := by
  rw [unwrap, if_neg (by simpa using hlocale)]

theorem unwrap_of_bare (hlocale : locale ≠ []) (hbare : ¬ locale <+: unwrapFence locale cs) :
    unwrap locale cs = unwrapFence locale cs := by
  rw [unwrap_eq hlocale, Text.after?_eq_none hbare, Option.getD_none]

theorem unwrapFence_append (locale text : List Char) :
    unwrapFence locale (fence ++ locale ++ text) = unfence text := by
  rw [unwrapFence, Text.after?_append]

theorem unwrapFence_of_unfenced (h : ¬ fence ++ locale <+: cs) : unwrapFence locale cs = cs := by
  rw [unwrapFence, Text.after?_eq_none h]

theorem length_unwrap_lt (hlocale : locale ≠ []) (text : List Char) :
    (unwrap locale (fence ++ locale ++ text)).length < (fence ++ locale ++ text).length := by
  have hpart : unwrap locale (fence ++ locale ++ text) <:+: text := by
    rw [unwrap_eq hlocale, unwrapFence_append]
    cases hafter : Text.after? locale (unfence text) with
    | some rest =>
        have hsuffix : rest <:+ unfence text :=
          ⟨locale, (Text.after?_eq_some_iff.mp hafter).symm⟩
        exact hsuffix.isInfix.trans (unfence_isInfix text)
    | none => exact unfence_isInfix text
  have hshorter := hpart.length_le
  have hfence : fence.length = 3 := rfl
  rw [List.length_append, List.length_append]
  omega

theorem exists_head_of_unmarked (hlocale : locale ≠ []) (hmark : backquote ∉ locale) :
    ∃ c more, locale = c :: more ∧ c ≠ backquote := by
  cases locale with
  | nil => exact absurd rfl hlocale
  | cons c more => exact ⟨c, more, rfl, fun hc => hmark (hc ▸ List.mem_cons_self)⟩

theorem not_locale_prefix (hlocale : locale ≠ []) (hmark : backquote ∉ locale)
    (text : List Char) : ¬ locale <+: fence ++ text := by
  rcases exists_head_of_unmarked hlocale hmark with ⟨c, more, rfl, hc⟩
  intro hlead
  exact hc (List.cons_prefix_cons.mp hlead).left

theorem not_fence_prefix (hlocale : locale ≠ []) (hmark : backquote ∉ locale)
    (text : List Char) : ¬ fence ++ locale <+: locale ++ text := by
  rcases exists_head_of_unmarked hlocale hmark with ⟨c, more, rfl, hc⟩
  intro hlead
  exact hc (List.cons_prefix_cons.mp hlead).left.symm

theorem unwrap_fence_append_iff (hlocale : locale ≠ []) (hmark : backquote ∉ locale) :
    unwrap locale (fence ++ text) = fence ++ text ↔ ¬ locale <+: text := by
  constructor
  · rintro hsame ⟨rest, rfl⟩
    have hshorter := length_unwrap_lt hlocale rest
    rw [List.append_assoc, hsame] at hshorter
    exact Nat.lt_irrefl _ hshorter
  · intro hlead
    have hfence : ¬ fence ++ locale <+: fence ++ text := by
      rwa [List.prefix_append_right_inj]
    have hsame := unwrapFence_of_unfenced hfence
    rw [unwrap_of_bare hlocale (by rw [hsame]; exact not_locale_prefix hlocale hmark text), hsame]

theorem unwrap_longer_name {more body : List Char} (hlocale : locale ≠ []) (hmore : more ≠ [])
    (hline : '\n' ∉ more) (hbare : ¬ locale <+: more ++ '\n' :: body) :
    unwrap locale (fence ++ locale ++ (more ++ '\n' :: body ++ '\n' :: fence)) =
      more ++ '\n' :: body := by
  cases more with
  | nil => exact absurd rfl hmore
  | cons c more =>
      have hc : c ≠ '\n' := fun hc => hline (hc ▸ List.mem_cons_self)
      have hinner : unfence (c :: more ++ '\n' :: body ++ '\n' :: fence) =
          c :: more ++ '\n' :: body := by
        have hwhole : dropNewline (c :: more ++ '\n' :: body ++ '\n' :: fence) =
            c :: more ++ '\n' :: body ++ '\n' :: fence ++ [] := by
          rw [List.append_nil]
          exact dropNewline_cons hc _
        exact unfence_eq (by simp) hwhole
      have hfence := unwrapFence_append locale (c :: more ++ '\n' :: body ++ '\n' :: fence)
      rw [hinner] at hfence
      rw [unwrap_of_bare hlocale (by rw [hfence]; exact hbare), hfence]

theorem prefix_line_iff {line rest : List Char} (hlocale : '\n' ∉ locale) :
    locale <+: line ++ '\n' :: rest ↔ locale <+: line := by
  constructor
  · intro hlead
    have hline : line ++ ['\n'] <+: line ++ '\n' :: rest := ⟨rest, by simp⟩
    rcases List.prefix_or_prefix_of_prefix hlead hline with hwithin | hbeyond
    · rcases List.prefix_concat_iff.mp hwithin with heq | hshort
      · exact absurd (heq ▸ List.mem_concat_self) hlocale
      · exact hshort
    · exact absurd (hbeyond.subset List.mem_concat_self) hlocale
  · intro hlead
    exact hlead.trans (List.prefix_append line _)

theorem toList_meant (locale content : String) :
    (meant .chat locale content).toList = unwrap locale.toList content.toList :=
  String.toList_ofList

section Replies

variable {locale : String}

/-- A text is told from a block marked with the locale, whatever blanks follow, and from behind the
locale alone. -/
theorem meant_wrapped {body blanks : String} (hlocale : locale ≠ "")
    (hmark : backquote ∉ locale.toList) (hbody : ¬ locale.toList <+: body.toList)
    (hblanks : ∀ c ∈ blanks.toList, Text.isBlank c = true) :
    meant .chat locale ("```" ++ locale ++ "\n" ++ body ++ "\n```" ++ blanks) = body ∧
      meant .chat locale (locale ++ body) = body := by
  have hne : locale.toList ≠ [] := by simpa using hlocale
  constructor
  · have hinner : unfence ('\n' :: body.toList ++ '\n' :: fence ++ blanks.toList) = body.toList :=
      unfence_eq hblanks rfl
    have hfenced : ("```" ++ locale ++ "\n" ++ body ++ "\n```" ++ blanks).toList =
        fence ++ locale.toList ++ ('\n' :: body.toList ++ '\n' :: fence ++ blanks.toList) := by
      simp [toList_fence, toList_fence_line]
    have hfence := unwrapFence_append locale.toList
      ('\n' :: body.toList ++ '\n' :: fence ++ blanks.toList)
    rw [hinner] at hfence
    rw [← String.toList_inj, toList_meant, hfenced,
      unwrap_of_bare hne (by rw [hfence]; exact hbody), hfence]
  · have hunfenced := not_fence_prefix hne hmark body.toList
    rw [← String.toList_inj, toList_meant, String.toList_append, unwrap_eq hne,
      unwrapFence_of_unfenced hunfenced, Text.after?_append, Option.getD_some]

/-- A block with a fence inside, an empty line at its end and two kinds of blanks behind it. -/
theorem meant_wrapped_of_inner_fence :
    let body := "```rust\n```\n "
    backquote ∉ "ja".toList ∧ ¬ "ja".toList <+: body.toList ∧
      meant .chat "ja" ("```" ++ "ja" ++ "\n" ++ body ++ "\n```" ++ " \u3000\n") = body ∧
      meant .chat "ja" ("ja" ++ body) = body := by
  have hmark : backquote ∉ "ja".toList := by decide
  have hbody : ¬ "ja".toList <+: "```rust\n```\n ".toList := by decide
  have hblanks : ∀ c ∈ " \u3000\n".toList, Text.isBlank c = true :=
    List.all_eq_true.mp (by decide)
  exact ⟨hmark, hbody, meant_wrapped (by decide) hmark hbody hblanks⟩

theorem meant_fence_append_iff (hlocale : locale ≠ "") (hmark : backquote ∉ locale.toList)
    (text : String) :
    meant .chat locale ("```" ++ text) = "```" ++ text ↔ ¬ locale.toList <+: text.toList := by
  have hne : locale.toList ≠ [] := by simpa using hlocale
  rw [← String.toList_inj, toList_meant, String.toList_append, toList_fence,
    unwrap_fence_append_iff hne hmark]

/-- A block of code is left as it is unless the locale is the beginning of its language, or of that
and what follows where a locale has several lines. Otherwise both of its fences and the beginning
of the language are lost. -/
theorem meant_code_block_iff {lang rest : String} (hlocale : locale ≠ "")
    (hmark : backquote ∉ locale.toList) (hlang : ∀ c ∈ lang.toList, c.isAlpha = true)
    (hother : lang ≠ locale) :
    (meant .chat locale ("```" ++ (lang ++ "\n" ++ rest)) = "```" ++ (lang ++ "\n" ++ rest) ↔
        ¬ locale.toList <+: (lang ++ "\n" ++ rest).toList) ∧
      ('\n' ∉ locale.toList →
        (meant .chat locale ("```" ++ (lang ++ "\n" ++ rest)) = "```" ++ (lang ++ "\n" ++ rest) ↔
          ¬ locale.toList <+: lang.toList)) ∧
      ∀ more body : String, lang = locale ++ more → rest = body ++ "\n```" →
        ¬ locale.toList <+: (more ++ "\n" ++ body).toList →
          meant .chat locale ("```" ++ (lang ++ "\n" ++ rest)) = more ++ "\n" ++ body := by
  have hblock := meant_fence_append_iff hlocale hmark (lang ++ "\n" ++ rest)
  refine ⟨hblock, ?_, ?_⟩
  · intro hline
    have hlines : (lang ++ "\n" ++ rest).toList = lang.toList ++ '\n' :: rest.toList := by simp
    rw [hblock, hlines, prefix_line_iff hline]
  · rintro more body rfl rfl hbare
    have hne : locale.toList ≠ [] := by simpa using hlocale
    have hmore : more.toList ≠ [] := by
      intro hnone
      apply hother
      rw [← String.toList_inj, String.toList_append, hnone, List.append_nil]
    have hline : '\n' ∉ more.toList := by
      intro hmem
      have hletter := hlang '\n' (by rw [String.toList_append]; exact List.mem_append_right _ hmem)
      exact absurd hletter (by decide)
    have hinner : (more ++ "\n" ++ body).toList = more.toList ++ '\n' :: body.toList := by simp
    have hreply : ("```" ++ (locale ++ more ++ "\n" ++ (body ++ "\n```"))).toList =
        fence ++ locale.toList ++ (more.toList ++ '\n' :: body.toList ++ '\n' :: fence) := by
      simp [toList_fence, toList_fence_line]
    rw [hinner] at hbare
    rw [← String.toList_inj, toList_meant, hreply, hinner,
      unwrap_longer_name hne hmore hline hbare]

/-- The name of the language has the locale inside, but not in front. -/
theorem meant_code_block_of_inner_locale :
    backquote ∉ "de".toList ∧ (∀ c ∈ "code".toList, c.isAlpha = true) ∧ "code" ≠ "de" ∧
      meant .chat "de" ("```" ++ ("code" ++ "\n" ++ "de\n```")) =
        "```" ++ ("code" ++ "\n" ++ "de\n```") := by
  have hmark : backquote ∉ "de".toList := by decide
  have hlang : ∀ c ∈ "code".toList, c.isAlpha = true := List.all_eq_true.mp (by decide)
  have hother : "code" ≠ "de" := by decide
  have hblock := @meant_code_block_iff "de" "code" "de\n```" (by decide) hmark hlang hother
  exact ⟨hmark, hlang, hother, (hblock.right.left (by decide)).mpr (by decide)⟩

/-- A block of Rust loses its fences and two letters of its name where the locale is Russian. -/
theorem code_block_cut_for_russian :
    let reply := "```" ++ ("rust" ++ "\n" ++ "fn main() \x7b\x7d\n```")
    backquote ∉ "ru".toList ∧ (∀ c ∈ "rust".toList, c.isAlpha = true) ∧ "rust" ≠ "ru" ∧
      meant .chat "ru" reply = "st\nfn main() \x7b\x7d" ∧ meant .chat "ru" reply ≠ reply := by
  intro reply
  have hlang : ∀ c ∈ "rust".toList, c.isAlpha = true := List.all_eq_true.mp (by decide)
  have hcut : meant .chat "ru" reply = "st\nfn main() \x7b\x7d" := by decide +kernel
  exact ⟨by decide, hlang, by decide, hcut, by rw [hcut]; decide⟩

end Replies

end Backend
end Parley
