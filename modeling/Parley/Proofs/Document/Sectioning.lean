import Parley.Proofs.Document.Boundary
import Parley.Proofs.Text.Bytes

/-!
# The only sectioning

A text can be cut in one way only so that no part is empty, a part other than the
first begins with a heading behind the end of a line, and no part goes on behind
such a place: into its sections. Main statement: this, and that the places are
those that are found when the bytes of the text are looked through.
-/

namespace Parley
namespace Document

/-!
# Sections of joined texts
-/

theorem sectionsOf_cons (c : Char) (text : List Char) :
    sectionsOf (c :: text) = placeChar c (sectionsOf text) :=
  rfl

theorem sectionsOf_eq_nil_iff {text : List Char} : sectionsOf text = [] ↔ text = [] := by
  constructor
  · intro h
    rw [← flatten_sectionsOf text, h]
    rfl
  · rintro rfl
    rfl

theorem placeChar_of_ne_newline {c : Char} (hc : c ≠ '\n') (ss : List (List Char)) :
    placeChar c ss = (c :: ss.headD []) :: ss.tail := by
  cases ss with
  | nil => rfl
  | cons s rest => exact placeChar_of_inner (fun h => hc h.left) rest

theorem exists_first_of_heading {text : List Char} (h : heading <+: text) :
    ∃ s rest, sectionsOf text = s :: rest ∧ heading <+: s := by
  rcases h with ⟨more, rfl⟩
  refine ⟨heading ++ (sectionsOf more).headD [], (sectionsOf more).tail, ?_,
    List.prefix_append _ _⟩
  show placeChar '#' (placeChar '#' (placeChar ' ' (sectionsOf more))) = _
  rw [placeChar_of_ne_newline (by decide), placeChar_of_ne_newline (by decide),
    placeChar_of_ne_newline (by decide)]
  rfl

theorem placeChar_append {c : Char} {ss : List (List Char)} (hss : ss ≠ [])
    (more : List (List Char)) : placeChar c (ss ++ more) = placeChar c ss ++ more := by
  cases ss with
  | nil => exact absurd rfl hss
  | cons s rest =>
      rw [List.cons_append, placeChar, placeChar]
      split <;> rfl

theorem sectionsOf_append {front back : List Char} (h : Meet front back) :
    sectionsOf (front ++ back) = sectionsOf front ++ sectionsOf back := by
  induction front with
  | nil => exact absurd h.lineEnds.length_le (by decide)
  | cons c front ih =>
      by_cases hfront : front = []
      · have hc : c = '\n' := by
          rcases h.lineEnds.eq_of_length (by rw [hfront]; rfl) with ⟨⟩
          rfl
        rcases exists_first_of_heading h.heads with ⟨s, rest, hback, hs⟩
        rw [hfront, hc, List.cons_append, sectionsOf_cons, List.nil_append, hback,
          placeChar_of_heading hs]
        rfl
      · have hends : ['\n'] <:+ front := by
          rcases List.suffix_cons_iff.mp h.lineEnds with heq | hlater
          · exact absurd (List.cons.inj heq).right.symm hfront
          · exact hlater
        have hne : sectionsOf front ≠ [] := fun hnil => hfront (sectionsOf_eq_nil_iff.mp hnil)
        rw [List.cons_append, sectionsOf_cons, ih ⟨hends, h.heads⟩, placeChar_append hne]
        rfl

/-!
# Lists of parts
-/

theorem sectionsOf_of_whole {s : List Char} (hne : s ≠ []) (hwhole : ¬ innerHeading <:+: s) :
    sectionsOf s = [s] := by
  induction s with
  | nil => exact absurd rfl hne
  | cons c s ih =>
      by_cases hs : s = []
      · rw [hs]
        rfl
      · have hinner : ¬ (c = '\n' ∧ heading <+: s) := by
          rintro ⟨rfl, hs⟩
          exact hwhole ((List.cons_prefix_cons.mpr ⟨rfl, hs⟩).isInfix)
        rw [sectionsOf_cons, ih hs fun h => hwhole (h.trans (List.suffix_cons c s).isInfix),
          placeChar_of_inner hinner]

theorem sectionsOf_flatten {ss : List (List Char)} (h : IsSectioned ss) :
    sectionsOf ss.flatten = ss := by
  induction ss with
  | nil => rfl
  | cons s rest ih =>
      have hne := List.forall_mem_cons.mp h.ne_nil
      have hwhole := List.forall_mem_cons.mp h.whole
      have hfirst : sectionsOf s = [s] := sectionsOf_of_whole hne.left hwhole.left
      have hrest : sectionsOf rest.flatten = rest := ih ⟨hne.right, h.meet.tail, hwhole.right⟩
      cases rest with
      | nil => rw [List.flatten_singleton, hfirst]
      | cons t rest =>
          have hmeet := (List.isChain_cons_cons.mp h.meet).left
          have hseam : Meet s (t :: rest).flatten :=
            ⟨hmeet.lineEnds, hmeet.heads.trans (List.prefix_append t rest.flatten)⟩
          rw [List.flatten_cons, sectionsOf_append hseam, hfirst, hrest]
          rfl

/-!
# Sections as texts
-/

/-- A text in parts that are not empty: each part but the first begins with a heading behind the
end of a line, and no part has a heading behind the end of a line in it. -/
structure IsSectioning (text : String) (parts : List String) : Prop where
  join_eq : String.join parts = text
  ne_empty : ∀ part ∈ parts, part ≠ ""
  meet : parts.IsChain MeetAtHeading
  whole : ∀ part ∈ parts, ¬ innerHeading <:+: part.toList

variable {text front back : String} {parts earlier later : List String} {n : Nat}

theorem isSectioning_sections (text : String) : IsSectioning text (sections text) where
  join_eq := join_sections text
  ne_empty := sections_ne_empty text
  meet := sections_meet text
  whole := sections_whole text

theorem IsSectioning.isSectioned (h : IsSectioning text parts) :
    IsSectioned (parts.map String.toList) where
  ne_nil := by
    intro s hs
    rcases List.mem_map.mp hs with ⟨part, hpart, rfl⟩
    exact fun hnil => h.ne_empty part hpart (String.toList_eq_nil_iff.mp hnil)
  meet := (List.isChain_map String.toList).mpr h.meet
  whole := by
    intro s hs
    rcases List.mem_map.mp hs with ⟨part, hpart, rfl⟩
    exact h.whole part hpart

theorem IsSectioning.eq_sections (h : IsSectioning text parts) : parts = sections text := by
  have hflatten : (parts.map String.toList).flatten = text.toList := by
    rw [← h.join_eq, String.toList_join]
    rfl
  rw [sections, ← hflatten, sectionsOf_flatten h.isSectioned, List.map_map]
  exact (List.map_id'' (fun part => String.ofList_toList) parts).symm

theorem sections_append (h : MeetAtHeading front back) :
    sections (front ++ back) = sections front ++ sections back := by
  rw [sections, String.toList_append, sectionsOf_append h, List.map_append]
  rfl

theorem sections_eq_nil_iff : sections text = [] ↔ text = "" := by
  rw [sections, List.map_eq_nil_iff, sectionsOf_eq_nil_iff, String.toList_eq_nil_iff]

/-!
# Where sections begin
-/

def offset (parts : List String) : Nat :=
  (String.join parts).utf8ByteSize

/-- A newline is found before this byte, and a heading from it on. -/
def CutsAt (text : String) (n : Nat) : Prop :=
  ∃ i, n = i + 1 ∧ Text.FoundAt text "\n" i ∧ Text.FoundAt text "## " n

theorem meetAtHeading_iff : MeetAtHeading front back ↔
    ∃ before after, front = before ++ "\n" ∧ back = "## " ++ after := by
  constructor
  · rintro ⟨⟨before, hbefore⟩, ⟨after, hafter⟩⟩
    refine ⟨String.ofList before, String.ofList after, ?_, ?_⟩
    · rw [← String.toList_inj, ← hbefore, String.toList_append, String.toList_ofList (l := before)]
      rfl
    · rw [← String.toList_inj, ← hafter, String.toList_append, String.toList_ofList (l := after)]
      rfl
  · rintro ⟨before, after, rfl, rfl⟩
    rw [MeetAtHeading, String.toList_append, String.toList_append]
    exact ⟨List.suffix_append _ _, List.prefix_append _ _⟩

theorem cutsAt_iff : CutsAt text n ↔
    ∃ front back, text = front ++ back ∧ MeetAtHeading front back ∧ front.utf8ByteSize = n := by
  constructor
  · rintro ⟨i, rfl, hnewline, hheading⟩
    rcases hnewline.exists_append (by decide) with ⟨before, rest, htext, rfl⟩
    rcases hheading.exists_append (by decide) with ⟨front, after, htext', hfront⟩
    rw [String.append_assoc] at htext'
    have hsize : (before ++ "\n").utf8ByteSize = front.utf8ByteSize := by
      rw [hfront, String.utf8ByteSize_append]
      rfl
    have hline := (Text.append_inj_of_size (htext.symm.trans htext') hsize).left
    have hmeet : MeetAtHeading front ("## " ++ after) :=
      meetAtHeading_iff.mpr ⟨before, after, hline.symm, rfl⟩
    exact ⟨front, "## " ++ after, htext', hmeet, hfront⟩
  · rintro ⟨front, back, rfl, hmeet, rfl⟩
    rcases meetAtHeading_iff.mp hmeet with ⟨before, after, rfl, rfl⟩
    refine ⟨before.utf8ByteSize, String.utf8ByteSize_append, ?_, ?_⟩
    · exact Text.foundAt_append before "\n" ("## " ++ after)
    · rw [← String.append_assoc]
      exact Text.foundAt_append (before ++ "\n") "## " after

theorem meetAtHeading_join (h : (earlier ++ later).IsChain MeetAtHeading) (hearlier : earlier ≠ [])
    (hlater : later ≠ []) : MeetAtHeading (String.join earlier) (String.join later) := by
  rcases List.eq_nil_or_concat' earlier with hnil | ⟨init, last, rfl⟩
  · exact absurd hnil hearlier
  · cases later with
    | nil => exact absurd rfl hlater
    | cons first rest =>
        rw [String.join_append, join_singleton, String.join_cons]
        apply MeetAtHeading.extend
        rw [List.append_assoc] at h
        exact (List.isChain_append_cons_cons.mp h).right.left

theorem cutsAt_iff_sections : CutsAt text n ↔
    ∃ earlier later, sections text = earlier ++ later ∧ earlier ≠ [] ∧ later ≠ [] ∧
      offset earlier = n := by
  rw [cutsAt_iff]
  constructor
  · rintro ⟨front, back, rfl, hmeet, rfl⟩
    rcases meetAtHeading_iff.mp hmeet with ⟨before, after, rfl, rfl⟩
    refine ⟨sections (before ++ "\n"), sections ("## " ++ after), sections_append hmeet, ?_, ?_, ?_⟩
    · rw [Ne, sections_eq_nil_iff, String.append_eq_empty_iff]
      exact fun h => absurd h.right (by decide)
    · rw [Ne, sections_eq_nil_iff, String.append_eq_empty_iff]
      exact fun h => absurd h.left (by decide)
    · rw [offset, join_sections]
  · rintro ⟨earlier, later, hsections, hearlier, hlater, rfl⟩
    refine ⟨String.join earlier, String.join later, ?_, ?_, rfl⟩
    · rw [← String.join_append, ← hsections, join_sections]
    · apply meetAtHeading_join _ hearlier hlater
      rw [← hsections]
      exact sections_meet text

theorem isSlice_section {part : String} (h : sections text = earlier ++ part :: later) :
    Text.IsSlice text part (offset earlier) (offset (earlier ++ [part])) := by
  have htext : text = String.join earlier ++ part ++ String.join later := by
    rw [← join_sections text, h, String.join_append, String.join_cons, String.append_assoc]
  rw [offset, offset, String.join_append, join_singleton, htext]
  exact Text.isSlice_append (String.join earlier) part (String.join later)

/-- The sections of a text are the only sectioning of it. Each is a slice between boundaries of
characters, those other than the first begin where a newline and a heading are found in the bytes,
what follows a newline begins at a boundary too, and there are none only if the text is empty. -/
theorem only_sectioning (text : String) :
    (∀ parts, IsSectioning text parts ↔ parts = sections text) ∧
      (∀ earlier part later, sections text = earlier ++ part :: later →
        Text.IsSlice text part (offset earlier) (offset (earlier ++ [part]))) ∧
      (∀ n, CutsAt text n ↔ ∃ earlier later, sections text = earlier ++ later ∧
        earlier ≠ [] ∧ later ≠ [] ∧ offset earlier = n) ∧
      (∀ n, Text.FoundAt text "\n" n → Text.IsBoundary text (n + 1)) ∧
      (sections text = [] ↔ text = "") := by
  refine ⟨fun parts => ⟨fun h => h.eq_sections, ?_⟩, fun earlier part later => isSlice_section,
    fun n => cutsAt_iff_sections, ?_, sections_eq_nil_iff⟩
  · rintro rfl
    exact isSectioning_sections text
  · intro n hnewline
    exact (hnewline.isBoundary (by decide)).right

/-- A heading without a title, between characters that take two bytes. -/
theorem only_sectioning_of_bare_heading :
    let text := "# ß\n## \n## Ü"
    let parts := ["# ß\n", "## \n", "## Ü"]
    sections text = parts ∧ (∀ others, IsSectioning text others → others = parts) ∧
      Text.IsSlice text "## \n" 5 9 ∧ CutsAt text 5 ∧ CutsAt text 9 ∧
      Text.IsBoundary text 5 := by
  intro text parts
  have hsections : sections text = parts := by decide +kernel
  have hfirst : offset ["# ß\n"] = 5 := by decide +kernel
  have hsecond : offset ["# ß\n", "## \n"] = 9 := by decide +kernel
  have hnewline : Text.FoundAt text "\n" 4 := by
    rw [Text.FoundAt]
    decide +kernel
  rcases only_sectioning text with ⟨honly, hslice, hcuts, hboundary, _⟩
  refine ⟨hsections, ?_, ?_, ?_, ?_, hboundary 4 hnewline⟩
  · intro others hothers
    exact ((honly others).mp hothers).trans hsections
  · rw [← hfirst, ← hsecond]
    exact hslice ["# ß\n"] "## \n" ["## Ü"] hsections
  · rw [← hfirst]
    exact (hcuts _).mpr ⟨["# ß\n"], ["## \n", "## Ü"], hsections, by simp, by simp, rfl⟩
  · rw [← hsecond]
    exact (hcuts _).mpr ⟨["# ß\n", "## \n"], ["## Ü"], hsections, by simp, by simp, rfl⟩

end Document
end Parley
