import Parley.Document.Fragment
import Parley.Proofs.Document.Packing

/-!
# Texts that stand alone

A text between elements is written with three entities, which are read back in one
pass from left to right. What is written of texts that stand next to each other is
what is written of the joined text, so no entity comes up where they meet. Main
statement: every text is read back, and so are the texts in the chunks of a page.
-/

namespace Parley
namespace Document

def entities : List (List Char) :=
  ["&amp;".toList, "&lt;".toList, "&gt;".toList]

/-- Reads entities from left to right. What is no entity stands for itself. -/
def unescape : List Char → List Char
  | [] => []
  | '&' :: 'a' :: 'm' :: 'p' :: ';' :: rest => '&' :: unescape rest
  | '&' :: 'l' :: 't' :: ';' :: rest => '<' :: unescape rest
  | '&' :: 'g' :: 't' :: ';' :: rest => '>' :: unescape rest
  | c :: rest => c :: unescape rest

/-!
# Entities
-/

theorem ampersand_notMem_tail : ∀ entity ∈ entities, '&' ∉ entity.tail := by
  decide

theorem angle_notMem_entity : ∀ entity ∈ entities, '<' ∉ entity ∧ '>' ∉ entity := by
  decide

theorem entity_eq_of_prefix :
    ∀ entity ∈ entities, ∀ other ∈ entities, entity <+: other → entity = other := by
  decide

theorem exists_entity_eq_cons : ∀ entity ∈ entities, entity = '&' :: entity.tail := by
  decide

theorem eq_nil_of_ampersand {entity front back : List Char} (hentity : entity ∈ entities)
    (h : entity = front ++ '&' :: back) : front = [] := by
  cases front with
  | nil => rfl
  | cons c front =>
      exfalso
      apply ampersand_notMem_tail entity hentity
      rw [h]
      exact List.mem_append_right front List.mem_cons_self

/-!
# One character
-/

theorem escapeChar_mem_entities (c : Char) :
    escapeChar c ∈ entities ∨ (escapeChar c = [c] ∧ c ≠ '&' ∧ c ≠ '<' ∧ c ≠ '>') := by
  fun_cases escapeChar c with
  | case1 hc => exact Or.inl (by decide)
  | case2 _ hc => exact Or.inl (by decide)
  | case3 _ _ hc => exact Or.inl (by decide)
  | case4 hamp hlt hgt => exact Or.inr ⟨rfl, hamp, hlt, hgt⟩

theorem escapeChar_of_ampersand {c : Char} {front back : List Char}
    (h : escapeChar c = front ++ '&' :: back) : front = [] ∧ escapeChar c ∈ entities := by
  rcases escapeChar_mem_entities c with hentity | ⟨hself, hamp, _⟩
  · exact ⟨eq_nil_of_ampersand hentity h, hentity⟩
  · have hmem : '&' ∈ [c] := by
      rw [← hself, h]
      exact List.mem_append_right front List.mem_cons_self
    exact absurd (List.mem_singleton.mp hmem).symm hamp

theorem angle_notMem_escapeChar (c : Char) : '<' ∉ escapeChar c ∧ '>' ∉ escapeChar c := by
  rcases escapeChar_mem_entities c with hentity | ⟨hself, _, hlt, hgt⟩
  · exact angle_notMem_entity _ hentity
  · rw [hself]
    constructor
    · exact fun h => hlt (List.mem_singleton.mp h).symm
    · exact fun h => hgt (List.mem_singleton.mp h).symm

theorem unescape_cons {c : Char} {rest : List Char}
    (h : ∀ entity ∈ entities, ¬ entity <+: c :: rest) :
    unescape (c :: rest) = c :: unescape rest := by
  rw [unescape]
  · rintro more rfl rfl
    exact h "&amp;".toList (by decide) ⟨more, rfl⟩
  · rintro more rfl rfl
    exact h "&lt;".toList (by decide) ⟨more, rfl⟩
  · rintro more rfl rfl
    exact h "&gt;".toList (by decide) ⟨more, rfl⟩

theorem unescape_escapeChar_append (c : Char) (rest : List Char) :
    unescape (escapeChar c ++ rest) = c :: unescape rest := by
  fun_cases escapeChar c with
  | case1 hc =>
      rw [hc]
      rfl
  | case2 _ hc =>
      rw [hc]
      rfl
  | case3 _ _ hc =>
      rw [hc]
      rfl
  | case4 hamp =>
      apply unescape_cons
      intro entity hentity hprefix
      rw [exists_entity_eq_cons entity hentity] at hprefix
      exact hamp (List.cons_prefix_cons.mp hprefix).left.symm

theorem unescape_induction {motive : List Char → Prop} (nil : motive [])
    (entity : ∀ c rest, motive rest → motive (escapeChar c ++ rest))
    (char : ∀ c rest, (∀ entity ∈ entities, ¬ entity <+: c :: rest) → motive rest →
      motive (c :: rest))
    (cs : List Char) : motive cs := by
  fun_induction unescape cs with
  | case1 => exact nil
  | case2 rest ih => exact entity '&' rest ih
  | case3 rest ih => exact entity '<' rest ih
  | case4 rest ih => exact entity '>' rest ih
  | case5 c rest hamp hlt hgt ih =>
      apply char c rest _ ih
      rintro entity hentity ⟨more, hmore⟩
      simp only [entities, List.mem_cons, List.not_mem_nil, or_false] at hentity
      rcases hentity with rfl | rfl | rfl <;> rcases List.cons.inj hmore with ⟨hc, hrest⟩
      · exact hamp more hc.symm hrest.symm
      · exact hlt more hc.symm hrest.symm
      · exact hgt more hc.symm hrest.symm

/-!
# Escaped texts
-/

theorem escape_cons (c : Char) (t : List Char) : escape (c :: t) = escapeChar c ++ escape t :=
  List.flatMap_cons

theorem escape_append (s t : List Char) : escape (s ++ t) = escape s ++ escape t :=
  List.flatMap_append

theorem unescape_escape_append (t rest : List Char) :
    unescape (escape t ++ rest) = t ++ unescape rest := by
  induction t with
  | nil => rfl
  | cons c t ih =>
      rw [escape_cons, List.append_assoc, unescape_escapeChar_append, ih]
      rfl

theorem unescape_escape (t : List Char) : unescape (escape t) = t := by
  have h := unescape_escape_append t []
  rwa [List.append_nil, unescape, List.append_nil] at h

theorem angle_notMem_escape (t : List Char) : '<' ∉ escape t ∧ '>' ∉ escape t := by
  constructor
  · intro h
    rcases List.mem_flatMap.mp h with ⟨c, _, hc⟩
    exact (angle_notMem_escapeChar c).left hc
  · intro h
    rcases List.mem_flatMap.mp h with ⟨c, _, hc⟩
    exact (angle_notMem_escapeChar c).right hc

theorem exists_entity_of_escape {t front back : List Char} (h : escape t = front ++ '&' :: back) :
    ∃ entity ∈ entities, entity <+: '&' :: back := by
  induction t generalizing front with
  | nil => exact absurd h.symm (List.append_ne_nil_of_right_ne_nil front (List.cons_ne_nil _ _))
  | cons c t ih =>
      rw [escape_cons] at h
      rcases List.append_eq_append_iff.mp h with ⟨more, _, ht⟩ | ⟨rest, hchar, hrest⟩
      · exact ih ht
      · cases rest with
        | nil =>
            have hfirst : escape t = [] ++ '&' :: back := hrest.symm
            exact ih hfirst
        | cons d rest =>
            rcases List.cons.inj hrest with ⟨rfl, _⟩
            rcases escapeChar_of_ampersand hchar with ⟨rfl, hentity⟩
            rw [List.nil_append] at hchar
            exact ⟨escapeChar c, hentity, hchar ▸ ⟨escape t, hrest.symm⟩⟩

/-!
# Seams
-/

/-- The text does not end inside an entity. -/
def IsClosed (cs : List Char) : Prop :=
  ∀ entity ∈ entities, ∀ begun ended, entity = begun ++ ended → begun ≠ [] → ended ≠ [] →
    ¬ begun <:+ cs

theorem IsClosed.of_suffix {cs back : List Char} (h : IsClosed cs) (hback : back <:+ cs) :
    IsClosed back := by
  intro entity hentity begun ended heq hbegun hended hsuffix
  exact h entity hentity begun ended heq hbegun hended (hsuffix.trans hback)

/-- No entity comes up where a closed text is continued. -/
theorem not_entity_append {c : Char} {front : List Char} (h : IsClosed (c :: front))
    (hnone : ∀ entity ∈ entities, ¬ entity <+: c :: front) (back : List Char) :
    ∀ entity ∈ entities, ¬ entity <+: c :: (front ++ back) := by
  intro entity hentity hprefix
  rcases List.prefix_or_prefix_of_prefix hprefix (List.prefix_append (c :: front) back) with
    hhere | ⟨ended, hended⟩
  · exact hnone entity hentity hhere
  · by_cases hnil : ended = []
    · rw [hnil, List.append_nil] at hended
      exact hnone entity hentity (hended ▸ List.prefix_refl _)
    · exact h entity hentity (c :: front) ended hended.symm (List.cons_ne_nil c front) hnil
        (List.suffix_refl _)

theorem unescape_append {front : List Char} (h : IsClosed front) (back : List Char) :
    unescape (front ++ back) = unescape front ++ unescape back := by
  induction front using unescape_induction with
  | nil => rfl
  | entity c front ih =>
      rw [List.append_assoc, unescape_escapeChar_append, unescape_escapeChar_append,
        ih (h.of_suffix (List.suffix_append _ front))]
      rfl
  | char c front hnone ih =>
      rw [List.cons_append, unescape_cons (not_entity_append h hnone back), unescape_cons hnone,
        ih (h.of_suffix (List.suffix_cons c front))]
      rfl

theorem IsClosed.append {front back : List Char} (hfront : IsClosed front)
    (hback : IsClosed back) : IsClosed (front ++ back) := by
  intro entity hentity begun ended heq hbegun hended hsuffix
  rcases List.suffix_or_suffix_of_suffix hsuffix (List.suffix_append front back) with
    hlater | ⟨earlier, rfl⟩
  · exact hback entity hentity begun ended heq hbegun hended hlater
  · by_cases hearlier : earlier = []
    · rw [hearlier, List.nil_append] at heq hbegun
      exact hback entity hentity back ended heq hbegun hended (List.suffix_refl back)
    · rw [List.append_assoc] at heq
      apply hfront entity hentity earlier (back ++ ended) heq hearlier
      · exact List.append_ne_nil_of_right_ne_nil back hended
      · exact List.suffix_append_self_iff.mp hsuffix

theorem isClosed_escapeChar (c : Char) : IsClosed (escapeChar c) := by
  rintro entity hentity begun ended heq hbegun hended ⟨earlier, hchar⟩
  have hcons : begun = '&' :: begun.tail := by
    cases begun with
    | nil => exact absurd rfl hbegun
    | cons d begun =>
        have hd := heq.symm.trans (exists_entity_eq_cons entity hentity)
        rw [(List.cons.inj hd).left]
        rfl
  rcases escapeChar_of_ampersand (hcons ▸ hchar.symm) with ⟨rfl, hother⟩
  rw [List.nil_append] at hchar
  rw [hchar] at heq
  have hsame : escapeChar c = entity :=
    entity_eq_of_prefix _ hother entity hentity ⟨ended, heq.symm⟩
  rw [hsame] at heq
  exact hended (List.self_eq_append_right.mp heq)

theorem isClosed_escape (t : List Char) : IsClosed (escape t) := by
  induction t with
  | nil =>
      intro entity _ begun ended _ hbegun _ hsuffix
      exact hbegun (List.suffix_nil.mp hsuffix)
  | cons c t ih =>
      rw [escape_cons]
      exact (isClosed_escapeChar c).append ih

theorem isClosed_of_angle (cs : List Char) : IsClosed (cs ++ ['>']) := by
  intro entity hentity begun ended heq hbegun _ hsuffix
  have hlast : '>' ∈ begun := by
    rcases List.suffix_concat_iff.mp hsuffix with hnil | ⟨init, hinit, _⟩
    · exact absurd hnil hbegun
    · rw [hinit]
      exact List.mem_append_right init List.mem_cons_self
  apply (angle_notMem_entity entity hentity).right
  rw [heq]
  exact List.mem_append_left ended hlast

/-!
# Texts in chunks
-/

def kept (pieces : List Html.Piece) : List Html.Piece :=
  pieces.filter fun piece => (fragment? piece).isSome

def written (pieces : List Html.Piece) : String :=
  String.join (pieces.filterMap fragment?)

/-- Texts that stand next to each other in a chunk are read back, by themselves, and in the chunk
if no element before them ends inside an entity. -/
structure ReadsBack (before : List Html.Piece) (texts : List String) (after : List Html.Piece) :
    Prop where
  placed : written (before ++ texts.map .text ++ after) =
    written before ++ written (texts.map .text) ++ written after
  alone : unescape (written (texts.map .text)).toList = (String.join texts).toList
  inside : (∀ w, .element w ∈ before → IsClosed w.toList) →
    unescape (written (before ++ texts.map .text ++ after)).toList =
      unescape (written before).toList ++ (String.join texts).toList ++
        unescape (written after).toList

theorem filterMap_kept (pieces : List Html.Piece) :
    (kept pieces).filterMap fragment? = pieces.filterMap fragment? := by
  rw [kept, List.filterMap_filter]
  congr 1
  funext piece
  cases fragment? piece <;> rfl

theorem written_append (front back : List Html.Piece) :
    written (front ++ back) = written front ++ written back := by
  rw [written, List.filterMap_append, String.join_append]
  rfl

theorem fragment?_text {s : String} (h : Text.isAllBlank s = false) :
    fragment? (.text s) = some (String.ofList (escape s.toList)) := by
  simp [fragment?, h]

theorem toList_written_texts {texts : List String}
    (h : ∀ s ∈ texts, Text.isAllBlank s = false) :
    (written (texts.map .text)).toList = escape (String.join texts).toList := by
  induction texts with
  | nil => rfl
  | cons s texts ih =>
      have hs := List.forall_mem_cons.mp h
      rw [written, List.map_cons, List.filterMap_cons_some (fragment?_text hs.left),
        String.join_cons, String.join_cons, String.toList_append, String.toList_append,
        String.toList_ofList, escape_append, ← ih hs.right]
      rfl

theorem isAllBlank_of_mem_kept {pieces : List Html.Piece} {s : String}
    (h : .text s ∈ kept pieces) : Text.isAllBlank s = false := by
  have hsome := (List.mem_filter.mp h).right
  cases hblank : Text.isAllBlank s with
  | false => rfl
  | true => simp [fragment?, hblank] at hsome

theorem eq_empty_of_mem_kept {pieces : List Html.Piece} {piece : Html.Piece}
    (h : piece ∈ kept pieces) (hempty : fragment? piece = some "") : piece = .element "" := by
  cases piece with
  | element w => rw [Option.some.inj hempty]
  | comment => cases hempty
  | text s =>
      have hblank := isAllBlank_of_mem_kept h
      rw [fragment?_text hblank] at hempty
      have hnil : escape s.toList = [] := by
        rw [← String.toList_ofList (l := escape s.toList), Option.some.inj hempty]
        rfl
      have hs : s = "" := by
        rw [← String.toList_eq_nil_iff, ← unescape_escape s.toList, hnil]
        rfl
      rw [hs] at hblank
      cases hblank

theorem isClosed_fragment {piece : Html.Piece} {w : String} (h : fragment? piece = some w)
    (helement : piece = .element w → IsClosed w.toList) : IsClosed w.toList := by
  cases piece with
  | element v =>
      apply helement
      rw [Option.some.inj h]
  | comment => cases h
  | text s =>
      have hw : String.ofList (escape s.toList) = w := by
        rw [fragment?] at h
        split at h
        · cases h
        · exact Option.some.inj h
      rw [← hw, String.toList_ofList]
      exact isClosed_escape s.toList

theorem isClosed_join {parts : List String} (h : ∀ part ∈ parts, IsClosed part.toList) :
    IsClosed (String.join parts).toList := by
  induction parts with
  | nil => exact isClosed_escape []
  | cons part parts ih =>
      have hparts := List.forall_mem_cons.mp h
      rw [String.join_cons, String.toList_append]
      exact hparts.left.append (ih hparts.right)

theorem isClosed_written {pieces : List Html.Piece}
    (h : ∀ w, .element w ∈ pieces → IsClosed w.toList) : IsClosed (written pieces).toList := by
  apply isClosed_join
  intro w hw
  rcases List.mem_filterMap.mp hw with ⟨piece, hpiece, hfragment⟩
  exact isClosed_fragment hfragment fun heq => h w (heq ▸ hpiece)

theorem readsBack {before after : List Html.Piece} {texts : List String}
    (h : ∀ s ∈ texts, Text.isAllBlank s = false) : ReadsBack before texts after := by
  have hplaced : written (before ++ texts.map .text ++ after) =
      written before ++ written (texts.map .text) ++ written after := by
    rw [written_append, written_append]
  constructor
  · exact hplaced
  · rw [toList_written_texts h, unescape_escape]
  · intro hbefore
    rw [hplaced, String.toList_append, String.toList_append, toList_written_texts h,
      List.append_assoc, unescape_append (isClosed_written hbefore), unescape_escape_append,
      List.append_assoc]

theorem exists_runs {pieces : List Html.Piece} {groups : List (List String)} {more : List String}
    (h : pieces.filterMap fragment? = groups.flatten ++ more) :
    ∃ (runs : List (List Html.Piece)) (rest : List Html.Piece), pieces = runs.flatten ++ rest ∧
      runs.map (List.filterMap fragment?) = groups ∧ rest.filterMap fragment? = more := by
  induction groups generalizing pieces with
  | nil => exact ⟨[], pieces, rfl, rfl, h⟩
  | cons group groups ih =>
      rw [List.flatten_cons, List.append_assoc] at h
      rcases List.filterMap_eq_append_iff.mp h with ⟨run, behind, rfl, hrun, hbehind⟩
      rcases ih hbehind with ⟨runs, rest, rfl, hruns, hrest⟩
      refine ⟨run :: runs, rest, ?_, ?_, hrest⟩
      · rw [List.flatten_cons, List.append_assoc]
      · rw [List.map_cons, hrun, hruns]

/-- Loose texts survive. What is written of a text has no angle bracket, every ampersand in it
begins an entity, and it is read back as the text; joined texts are written as what is written of
them, joined. So the chunks of a page are runs of its pieces, and texts that stand next to each
other in one of them are read back. -/
theorem loose_texts_survive :
    (∀ t, ('<' ∉ escape t ∧ '>' ∉ escape t) ∧
      (∀ front back, escape t = front ++ '&' :: back →
        ∃ entity ∈ entities, entity <+: '&' :: back) ∧
      unescape (escape t) = t) ∧
    (∀ s t, escape (s ++ t) = escape s ++ escape t) ∧
    ∀ window pieces, ∃ (runs : List (List Html.Piece)) (rest : List Html.Piece),
      kept pieces = runs.flatten ++ rest ∧ (∀ piece ∈ rest, piece = .element "") ∧
      pack window (pieces.filterMap fragment?) = runs.map written ∧
      ∀ run ∈ runs, ∀ before texts after, run = before ++ texts.map .text ++ after →
        ReadsBack before texts after := by
  refine ⟨fun t => ⟨angle_notMem_escape t, fun front back => exists_entity_of_escape,
    unescape_escape t⟩, escape_append, ?_⟩
  intro window pieces
  rcases exists_isPacked window (pieces.filterMap fragment?) with ⟨groups, hpacked⟩
  rcases hpacked.pieces_eq with ⟨more, hgroups, hmore⟩
  rw [← filterMap_kept] at hgroups
  rcases exists_runs hgroups with ⟨runs, rest, hkept, hruns, hrest⟩
  refine ⟨runs, rest, hkept, ?_, ?_, ?_⟩
  · intro piece hpiece
    have hmem : piece ∈ kept pieces := by
      rw [hkept]
      exact List.mem_append_right _ hpiece
    rcases Option.isSome_iff_exists.mp (List.mem_filter.mp hmem).right with ⟨w, hw⟩
    apply eq_empty_of_mem_kept hmem
    rw [hw, hmore w (hrest ▸ List.mem_filterMap.mpr ⟨piece, hpiece, hw⟩)]
  · rw [hpacked.chunks_eq, ← hruns, List.map_map]
    rfl
  · rintro run hrun before texts after rfl
    apply readsBack
    intro s hs
    have hmem : Html.Piece.text s ∈ kept pieces := by
      rw [hkept]
      apply List.mem_append_left
      apply List.mem_flatten_of_mem hrun
      apply List.mem_append_left
      exact List.mem_append_right before (List.mem_map_of_mem hs)
    exact isAllBlank_of_mem_kept hmem

/-- The first text ends with what could begin an entity, and the second one begins with what could
end it. -/
theorem loose_texts_survive_of_torn_entity :
    let before : List Html.Piece := [.element "<p>&amp</p>"]
    let after : List Html.Piece := [.element "<br>"]
    let pieces := before ++ [.text "&lt", .comment, .text "; a<b"] ++ after
    let chunk := "<p>&amp</p>&amp;lt; a&lt;b<br>"
    pack 100 (pieces.filterMap fragment?) = [chunk] ∧
      ReadsBack before ["&lt", "; a<b"] after ∧
      unescape chunk.toList = "<p>&amp</p>&lt; a<b<br>".toList ∧
      (∃ entity ∈ entities, entity <+: "&amp;lt".toList) ∧
      unescape (escape "&lt".toList) = "&lt".toList := by
  intro before after pieces chunk
  have hchunk : pack 100 (pieces.filterMap fragment?) = [chunk] := by decide +kernel
  have hkept : kept pieces = before ++ ["&lt", "; a<b"].map .text ++ after := rfl
  rcases loose_texts_survive with ⟨htext, _, hpack⟩
  rcases htext "&lt".toList with ⟨_, hampersand, hread⟩
  rcases hpack 100 pieces with ⟨runs, rest, hruns, hrest, hchunks, hreads⟩
  rw [hchunk] at hchunks
  rcases List.map_eq_singleton_iff.mp hchunks.symm with ⟨run, rfl, hrun⟩
  rw [List.flatten_singleton] at hruns
  have hnil : rest = [] := by
    apply List.eq_nil_iff_forall_not_mem.mpr
    intro piece hpiece
    have hmem : piece ∈ kept pieces := by
      rw [hruns]
      exact List.mem_append_right run hpiece
    rw [hrest piece hpiece, hkept] at hmem
    simp [before, after] at hmem
  rw [hnil, List.append_nil, hkept] at hruns
  have hback := hreads run List.mem_cons_self before ["&lt", "; a<b"] after hruns.symm
  have hclosed : ∀ w, .element w ∈ before → IsClosed w.toList := by
    intro w hw
    rw [Html.Piece.element.inj (List.mem_singleton.mp hw)]
    exact isClosed_of_angle "<p>&amp</p".toList
  refine ⟨hchunk, hback, ?_, hampersand [] "amp;lt".toList rfl, hread⟩
  have hinside := hback.inside hclosed
  rw [hruns, hrun] at hinside
  rw [hinside]
  decide +kernel

end Document
end Parley
