import Parley.Document
import Parley.Proofs.Document.Cutting
import Parley.Proofs.Document.Numbering

/-!
# Reassembly

A document that is reassembled from its own chunks is the text it was made of,
whatever the window. Of a page its fragments are left, which is all of it that is
ever translated.
-/

namespace Parley
namespace Document

theorem reassemble_ofMarkdown (window : Nat) (text : String) :
    (ofMarkdown window text).reassemble (ofMarkdown window text).chunks = text := by
  change restoreLinks (numberLinks text).2
    (String.join (pack window (sections (numberLinks text).1))) = text
  rw [join_pack, join_sections, restoreLinks_numberLinks]

theorem reassemble_ofHtml (window : Nat) (text : String) :
    (ofHtml window text).reassemble (ofHtml window text).chunks =
      String.join (fragments text) := by
  change String.join (pack window (fragments text)) = String.join (fragments text)
  rw [join_pack]

theorem reassemble_ofPlain (text : String) :
    (ofPlain text).reassemble (ofPlain text).chunks = text := by
  change String.join (if text.isEmpty then [] else [text]) = text
  split
  · rename_i hempty
    have htext : text = "" := by simpa using hempty
    rw [htext, String.join_nil]
  · simp

/-- Nothing is lost between cutting a text and putting its own chunks together again. -/
theorem reassemble_own_chunks (markup : Markup) (window : Nat) (text : String) :
    (ofText markup window text).reassemble (ofText markup window text).chunks =
      match markup with
      | .markdown => text
      | .html => String.join (fragments text)
      | .plain => text := by
  cases markup with
  | markdown => exact reassemble_ofMarkdown window text
  | html => exact reassemble_ofHtml window text
  | plain => exact reassemble_ofPlain text

end Document
end Parley
