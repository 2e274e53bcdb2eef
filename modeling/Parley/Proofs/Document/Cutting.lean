import Parley.Document.Packing
import Parley.Document.Section

/-!
# Cutting texts

Neither sections nor chunks lose anything: they join to what they were made of.
-/

namespace Parley
namespace Document

/-!
# Sections
-/

theorem flatten_placeChar (c : Char) (ss : List (List Char)) :
    (placeChar c ss).flatten = c :: ss.flatten := by
  cases ss with
  | nil => rfl
  | cons s rest =>
      rw [placeChar]
      split <;> simp

theorem flatten_sectionsOf (text : List Char) : (sectionsOf text).flatten = text := by
  induction text with
  | nil => rfl
  | cons c text ih =>
      change (placeChar c (sectionsOf text)).flatten = c :: text
      rw [flatten_placeChar, ih]

theorem join_sections (text : String) : String.join (sections text) = text := by
  rw [← String.toList_inj, String.toList_join, sections, List.flatMap_map]
  simp only [String.toList_ofList, List.flatMap_id']
  exact flatten_sectionsOf text.toList

/-!
# Chunks
-/

theorem join_packAfter (window : Nat) (current : String) (pieces : List String) :
    String.join (packAfter window current pieces) = current ++ String.join pieces := by
  induction pieces generalizing current with
  | nil =>
      rw [packAfter]
      split
      · rename_i hempty
        have hcurrent : current = "" := by simpa using hempty
        simp [hcurrent]
      · simp
  | cons piece rest ih =>
      rw [packAfter]
      split
      · rw [String.join_cons, ih piece, String.join_cons]
      · rw [ih (current ++ piece), String.join_cons, String.append_assoc]

theorem join_pack (window : Nat) (pieces : List String) :
    String.join (pack window pieces) = String.join pieces := by
  rw [pack, join_packAfter, String.empty_append]

end Document
end Parley
