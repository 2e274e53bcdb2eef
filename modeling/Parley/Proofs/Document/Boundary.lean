import Mathlib.Data.List.Chain
import Parley.Document
import Parley.Proofs.Document.Numbering
import Parley.Proofs.Document.Packing
import Parley.Proofs.Document.Section

/-!
# The boundaries of Markdown chunks

Links are numbered first, the numbered text is cut into sections, and sections are
packed. So chunks meet where sections meet, a chunk that is too large is one
section, and no numbered link is cut: it stands on one line, and every chunk but
the last ends with its line.
-/

namespace Parley
namespace Document

/-!
# Neighbours
-/

def MeetAtHeading (before after : String) : Prop :=
  Meet before.toList after.toList

theorem MeetAtHeading.extend {before after : String} (h : MeetAtHeading before after)
    (front back : String) : MeetAtHeading (front ++ before) (after ++ back) := by
  rw [MeetAtHeading, String.toList_append, String.toList_append]
  constructor
  · exact h.lineEnds.trans (List.suffix_append front.toList before.toList)
  · exact h.heads.trans (List.prefix_append after.toList back.toList)

/-!
# Chunks of pieces that are not empty
-/

section Packed

variable {window : Nat} {pieces chunks : List String} {runs : List (List String)}

theorem IsPacked.flatten_eq (h : IsPacked window pieces chunks runs)
    (hne : ∀ piece ∈ pieces, piece ≠ "") : runs.flatten = pieces := by
  rcases h.pieces_eq with ⟨rest, hpieces, hrest⟩
  cases rest with
  | nil => rw [hpieces, List.append_nil]
  | cons piece rest =>
      exfalso
      apply hne piece
      · rw [hpieces]
        exact List.mem_append_right _ List.mem_cons_self
      · exact hrest piece List.mem_cons_self

theorem IsPacked.nil_notMem (h : IsPacked window pieces chunks runs) : [] ∉ runs :=
  fun hnil => h.ne_empty [] hnil String.join_nil

theorem IsPacked.mem_of_large (h : IsPacked window pieces chunks runs)
    (hne : ∀ piece ∈ pieces, piece ≠ "") {chunk : String} (hchunk : chunk ∈ chunks)
    (hlarge : window < chunk.length) : chunk ∈ pieces := by
  rw [h.chunks_eq] at hchunk
  rcases List.mem_map.mp hchunk with ⟨run, hrun, rfl⟩
  have hpieces : ∀ piece ∈ run, piece ∈ pieces := by
    intro piece hpiece
    rw [← h.flatten_eq hne]
    exact List.mem_flatten.mpr ⟨run, hrun, hpiece⟩
  have halone := h.alone run hrun hlarge
  rw [filled_eq_self fun piece hpiece => hne piece (hpieces piece hpiece)] at halone
  rcases List.length_eq_one_iff.mp halone with ⟨piece, rfl⟩
  rw [join_singleton]
  exact hpieces piece List.mem_cons_self

theorem IsPacked.meet (h : IsPacked window pieces chunks runs)
    (hne : ∀ piece ∈ pieces, piece ≠ "") (hmeet : pieces.IsChain MeetAtHeading) :
    chunks.IsChain MeetAtHeading := by
  rw [← h.flatten_eq hne, List.isChain_flatten h.nil_notMem] at hmeet
  rw [h.chunks_eq, List.isChain_map]
  apply List.IsChain.imp_of_mem_imp _ hmeet.right
  intro run next hrun hnext hends
  have hne_nil : ∀ r ∈ runs, r ≠ [] := fun r hr hnil => h.nil_notMem (hnil ▸ hr)
  rcases List.eq_nil_or_concat' run with hnil | ⟨init, last, rfl⟩
  · exact absurd hnil (hne_nil run hrun)
  · cases next with
    | nil => exact absurd rfl (hne_nil [] hnext)
    | cons first rest =>
        rw [String.join_append, join_singleton, String.join_cons]
        apply MeetAtHeading.extend
        exact hends last (by simp) first (by simp)

end Packed

/-!
# Sections as texts
-/

theorem sections_ne_empty (text : String) : ∀ piece ∈ sections text, piece ≠ "" := by
  intro piece hpiece hempty
  rcases List.mem_map.mp hpiece with ⟨s, hs, rfl⟩
  apply (isSectioned_sectionsOf text.toList).ne_nil s hs
  rw [← String.toList_ofList (l := s), hempty]
  rfl

theorem sections_meet (text : String) : (sections text).IsChain MeetAtHeading := by
  rw [sections, List.isChain_map]
  apply List.IsChain.imp _ (isSectioned_sectionsOf text.toList).meet
  intro before after hmeet
  rw [MeetAtHeading, String.toList_ofList, String.toList_ofList]
  exact hmeet

theorem sections_whole (text : String) :
    ∀ piece ∈ sections text, ¬ innerHeading <:+: piece.toList := by
  intro piece hpiece
  rcases List.mem_map.mp hpiece with ⟨s, hs, rfl⟩
  rw [String.toList_ofList]
  exact (isSectioned_sectionsOf text.toList).whole s hs

/-!
# Tokens on one line
-/

/-- One chunk holds the whole token that stands between these two parts of the text. -/
def LiesInChunk (chunks : List String) (front token back : List Char) : Prop :=
  ∃ earlier chunk later before after,
    chunks = earlier ++ chunk :: later ∧
    chunk.toList = before ++ token ++ after ∧
    front = (String.join earlier).toList ++ before ∧
    back = after ++ (String.join later).toList

theorem LiesInChunk.cons {chunks : List String} {front token back : List Char} (chunk : String)
    (h : LiesInChunk chunks front token back) :
    LiesInChunk (chunk :: chunks) (chunk.toList ++ front) token back := by
  rcases h with ⟨earlier, inside, later, before, after, rfl, hinside, rfl, hback⟩
  refine ⟨chunk :: earlier, inside, later, before, after, rfl, hinside, ?_, hback⟩
  rw [String.join_cons, String.toList_append, List.append_assoc]

theorem newline_mem_of_meet {before after : String} (h : MeetAtHeading before after)
    {front rest : List Char} (hbefore : before.toList = front ++ rest) (hne : rest ≠ []) :
    '\n' ∈ rest := by
  rcases h.lineEnds with ⟨init, hinit⟩
  rw [hbefore] at hinit
  rcases List.eq_nil_or_concat' rest with hnil | ⟨more, last, rfl⟩
  · exact absurd hnil hne
  · rw [← List.append_assoc] at hinit
    have hlast := (List.cons.inj (List.append_inj' hinit rfl).right).left
    rw [hlast]
    exact List.mem_append_right more List.mem_cons_self

/-- A token on one line does not go on behind the end of a chunk, which is the end of a line. -/
theorem liesInChunk_of_oneLine {chunks : List String} (hmeet : chunks.IsChain MeetAtHeading)
    {front token back : List Char} (hline : '\n' ∉ token) (hne : token ≠ [])
    (h : (String.join chunks).toList = front ++ token ++ back) :
    LiesInChunk chunks front token back := by
  induction chunks generalizing front with
  | nil =>
      exfalso
      apply hne
      rw [String.join_nil, String.toList_empty] at h
      exact (List.append_eq_nil_iff.mp (List.append_eq_nil_iff.mp h.symm).left).right
  | cons chunk chunks ih =>
      have hlater : ∀ rest, front = chunk.toList ++ rest →
          LiesInChunk (chunk :: chunks) front token back := by
        intro rest hfront
        rw [hfront, String.join_cons, String.toList_append, List.append_assoc,
          List.append_assoc] at h
        rw [hfront]
        apply LiesInChunk.cons
        apply ih hmeet.tail
        rw [List.append_assoc]
        exact List.append_cancel_left h
      have hhere : ∀ after, chunk.toList = front ++ token ++ after →
          back = after ++ (String.join chunks).toList →
            LiesInChunk (chunk :: chunks) front token back := by
        intro after hchunk hback
        exact ⟨[], chunk, chunks, front, after, rfl, hchunk, rfl, hback⟩
      rw [String.join_cons, String.toList_append, List.append_assoc] at h
      rcases List.append_eq_append_iff.mp h with ⟨rest, hfront, _⟩ | ⟨rest, hchunk, hrest⟩
      · exact hlater rest hfront
      · rcases List.append_eq_append_iff.mp hrest with
          ⟨after, hafter, hback⟩ | ⟨beyond, htoken, hbeyond⟩
        · apply hhere after _ hback
          rw [hchunk, hafter, List.append_assoc]
        · by_cases hrest_nil : rest = []
          · apply hlater []
            rw [hchunk, hrest_nil, List.append_nil, List.append_nil]
          · cases chunks with
            | nil =>
                rw [String.join_nil, String.toList_empty] at hbeyond
                rcases List.append_eq_nil_iff.mp hbeyond.symm with ⟨rfl, rfl⟩
                apply hhere []
                · rw [hchunk, htoken, List.append_nil, List.append_nil]
                · rfl
            | cons next chunks =>
                exfalso
                apply hline
                rw [htoken]
                apply List.mem_append_left
                have hends := (List.isChain_cons_cons.mp hmeet).left
                exact newline_mem_of_meet hends hchunk hrest_nil

/-!
# Numbered links
-/

def countLinks (pieces : List Piece) : Nat :=
  (pieces.filterMap Piece.target?).length

theorem writeNumbered_append (n : Nat) (front back : List Piece) :
    writeNumbered n (front ++ back) =
      writeNumbered n front ++ writeNumbered (n + countLinks front) back := by
  induction front generalizing n with
  | nil => rfl
  | cons piece front ih =>
      cases piece with
      | char c =>
          rw [List.cons_append, writeNumbered, writeNumbered, ih]
          rfl
      | link label target =>
          have hcount : countLinks (.link label target :: front) = countLinks front + 1 := rfl
          rw [List.cons_append, writeNumbered, writeNumbered, ih, hcount, List.append_assoc,
            Nat.add_right_comm, Nat.add_assoc]

theorem label_oneLine {text label target : List Char}
    (h : Piece.link label target ∈ linkPieces text) : '\n' ∉ label := by
  induction text using pieces_induction anyTarget_shortens with
  | nil =>
      rw [linkPieces, piecesOf_nil] at h
      cases h
  | char c rest hc ih =>
      rw [linkPieces, piecesOf_char hc, List.mem_cons] at h
      rcases h with hchar | hrest
      · cases hchar
      · exact ih hrest
  | link rest l t after hlink ih =>
      rw [linkPieces, piecesOf_link hlink, List.mem_cons] at h
      rcases h with hfirst | hrest
      · cases hfirst
        rcases linkAfter_eq_some_iff.mp hlink with ⟨more, _, _, hcloses⟩
        exact hcloses.oneLine
      · exact ih hrest

theorem newline_notMem_writeLink {label target : List Char} (hlabel : '\n' ∉ label)
    (htarget : '\n' ∉ target) : '\n' ∉ writeLink label target := by
  simp [writeLink, hlabel, htarget]

theorem newline_notMem_digits (n : Nat) : '\n' ∉ Text.digits n := by
  intro hmem
  exact absurd (Text.isAsciiDigit_of_mem_digits hmem) (by decide)

/-!
# Markdown
-/

theorem join_markdown_chunks (window : Nat) (text : String) :
    String.join (ofText .markdown window text).chunks = (numberLinks text).1 := by
  change String.join (pack window (sections (numberLinks text).1)) = (numberLinks text).1
  rw [join_pack, join_sections]

theorem markdown_chunks_meet (window : Nat) (text : String) :
    (ofText .markdown window text).chunks.IsChain MeetAtHeading := by
  rcases exists_isPacked window (sections (numberLinks text).1) with ⟨runs, hruns⟩
  exact hruns.meet (sections_ne_empty _) (sections_meet _)

/-- No chunk is empty, chunks meet where a line ends and a heading begins, a chunk that is larger
than the window is one section, and each numbered link lies in one chunk. -/
theorem markdown_chunks_whole (window : Nat) (text : String) :
    let chunks := (ofText .markdown window text).chunks
    (∀ chunk ∈ chunks, chunk ≠ "") ∧
      chunks.IsChain MeetAtHeading ∧
      (∀ chunk ∈ chunks, window < chunk.length → ¬ innerHeading <:+: chunk.toList) ∧
      ∀ front label target back,
        linkPieces text.toList = front ++ .link label target :: back →
          LiesInChunk chunks (writeNumbered 0 front)
            (writeLink label (Text.digits (countLinks front)))
            (writeNumbered (countLinks front + 1) back) := by
  intro chunks
  rcases exists_isPacked window (sections (numberLinks text).1) with ⟨runs, hruns⟩
  have hmeet : chunks.IsChain MeetAtHeading := markdown_chunks_meet window text
  constructor
  · exact hruns.chunk_ne_empty
  constructor
  · exact hmeet
  constructor
  · intro chunk hchunk hlarge
    have hsection := hruns.mem_of_large (sections_ne_empty _) hchunk hlarge
    exact sections_whole _ chunk hsection
  · intro front label target back hpieces
    have hlink : Piece.link label target ∈ linkPieces text.toList := by
      rw [hpieces]
      exact List.mem_append_right front List.mem_cons_self
    apply liesInChunk_of_oneLine hmeet
    · exact newline_notMem_writeLink (label_oneLine hlink) (newline_notMem_digits _)
    · exact List.cons_ne_nil _ _
    · rw [join_markdown_chunks, numberLinks, String.toList_ofList, hpieces,
        writeNumbered_append, writeNumbered, Nat.zero_add, List.append_assoc]

/-- The second section is too large for a chunk and holds the second link. -/
theorem markdown_chunks_whole_of_large_section :
    let chunks := ["[a](0)\n", "## B [c](1)\n", "## D\n"]
    (ofText .markdown 10 "[a](x)\n## B [c](y)\n## D\n").chunks = chunks ∧
      chunks.IsChain MeetAtHeading ∧
      ¬ innerHeading <:+: "## B [c](1)\n".toList ∧
      LiesInChunk chunks "[a](0)\n## B ".toList "[c](1)".toList "\n## D\n".toList := by
  intro chunks
  have hchunks : (ofText .markdown 10 "[a](x)\n## B [c](y)\n## D\n").chunks = chunks := by
    decide +kernel
  let front := Piece.link ['a'] ['x'] :: "\n## B ".toList.map Piece.char
  let back := "\n## D\n".toList.map Piece.char
  have hpieces : linkPieces "[a](x)\n## B [c](y)\n## D\n".toList =
      front ++ .link ['c'] ['y'] :: back := by
    decide +kernel
  have hfront : writeNumbered 0 front = "[a](0)\n## B ".toList := by decide +kernel
  have htoken : writeLink ['c'] (Text.digits (countLinks front)) = "[c](1)".toList := by
    decide +kernel
  rcases markdown_chunks_whole 10 "[a](x)\n## B [c](y)\n## D\n" with
    ⟨_, hmeet, hwhole, hlinks⟩
  rw [hchunks] at hmeet hwhole hlinks
  constructor
  · exact hchunks
  constructor
  · exact hmeet
  constructor
  · exact hwhole "## B [c](1)\n" (by decide) (by decide)
  · rw [← hfront, ← htoken]
    exact hlinks front ['c'] ['y'] back hpieces

end Document
end Parley
