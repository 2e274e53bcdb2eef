import Parley.Proofs.Document.Pattern

/-!
# Numbering a numbered text

A numbered text has the links of the text it was made of, with numbers for targets
and in the same places, so numbering it once more finds each number where it would
write it. Main statement: the second numbering gives the same text and the numerals
from 0 on.
-/

namespace Parley
namespace Document

/-- What is written for numbered pieces does not depend on the targets they had. -/
theorem writeNumbered_numberPieces (m n : Nat) (pieces : List Piece) :
    writeNumbered m (numberPieces n pieces) = writeNumbered m pieces := by
  induction pieces generalizing m n with
  | nil => rfl
  | cons p pieces ih =>
      cases p with
      | char c => rw [numberPieces, writeNumbered, writeNumbered, ih]
      | link label target => rw [numberPieces, writeNumbered, writeNumbered, ih]

theorem filterMap_target_numberPieces (n : Nat) (pieces : List Piece) :
    (numberPieces n pieces).filterMap Piece.target? =
      (List.range' n (pieces.filterMap Piece.target?).length).map Text.digits := by
  induction pieces generalizing n with
  | nil => rfl
  | cons p pieces ih =>
      cases p with
      | char c => exact ih n
      | link label target =>
          show Text.digits n :: (numberPieces (n + 1) pieces).filterMap Piece.target? = _
          rw [ih]
          rfl

theorem linkPieces_writeNumbered (text : List Char) :
    linkPieces (writeNumbered 0 (linkPieces text)) = numberPieces 0 (linkPieces text) :=
  piecesOf_numberedText anyTarget_shortens anyTarget_readsNumerals 0 text

/-- Numbering a numbered text changes nothing: its links are those of the text it was made of,
each with its own place in the order as target, and there are no others. -/
theorem numberLinks_numbered (text : String) :
    let numbered := (numberLinks text).1
    let numerals := (List.range (numberLinks text).2.length).map fun n : Nat => toString n
    numberLinks numbered = (numbered, numerals) ∧
      ∃ found,
        (∀ pieces, Scan (.lazy isNotNewline) text.toList pieces ↔ pieces = found) ∧
        (∀ pieces, Scan (.lazy isNotNewline) numbered.toList pieces ↔
          pieces = numberPieces 0 found) ∧
        (numberPieces 0 found).filterMap Piece.target? = numerals.map String.toList := by
  intro numbered numerals
  have hnumbered : numbered.toList = writeNumbered 0 (linkPieces text.toList) := by
    show (String.ofList _).toList = _
    rw [String.toList_ofList]
  have hpieces : linkPieces numbered.toList = numberPieces 0 (linkPieces text.toList) := by
    rw [hnumbered, linkPieces_writeNumbered]
  have hlength : (numberLinks text).2.length =
      ((linkPieces text.toList).filterMap Piece.target?).length := List.length_map _
  have htargets : (numberPieces 0 (linkPieces text.toList)).filterMap Piece.target? =
      numerals.map String.toList := by
    rw [filterMap_target_numberPieces, ← hlength, ← List.range_eq_range', List.map_map]
    apply List.map_congr_left
    intro n _
    show Text.digits n = (toString n).toList
    rw [← Text.ofList_digits, String.toList_ofList]
  refine ⟨?_, linkPieces text.toList, ?_, ?_, htargets⟩
  · have htext : String.ofList (writeNumbered 0 (linkPieces numbered.toList)) = numbered := by
      rw [hpieces, writeNumbered_numberPieces, ← hnumbered, String.ofList_toList]
    have htable : ((linkPieces numbered.toList).filterMap Piece.target?).map String.ofList =
        numerals := by
      rw [hpieces, htargets, List.map_map]
      exact List.map_id'' (fun s => String.ofList_toList) numerals
    exact Prod.ext htext htable
  · intro pieces
    exact scan_iff_linkPieces text.toList pieces
  · intro pieces
    rw [scan_iff_linkPieces, hpieces]

end Document
end Parley
