import Parley.Text.Blank

/-!
# Sections

A section begins at each line that starts with `## `, and at the start of the
text. Sections are never empty and join to the text again.
-/

namespace Parley
namespace Document

def heading : List Char :=
  ['#', '#', ' ']

def placeChar (c : Char) : List (List Char) → List (List Char)
  | [] => [[c]]
  | s :: rest =>
    if c = '\n' ∧ Text.startsWith heading s then [c] :: s :: rest else (c :: s) :: rest

def sectionsOf (text : List Char) : List (List Char) :=
  text.foldr placeChar []

def sections (text : String) : List String :=
  (sectionsOf text.toList).map String.ofList

end Document
end Parley
