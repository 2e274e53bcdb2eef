import Parley.Html.Page

/-!
# Fragments

A page is cut into what stands directly in its body: elements as they are
written, and text between them. Blank text and comments are left out.
-/

namespace Parley
namespace Document

def escapeChar (c : Char) : List Char :=
  if c = '&' then ['&', 'a', 'm', 'p', ';']
  else if c = '<' then ['&', 'l', 't', ';']
  else if c = '>' then ['&', 'g', 't', ';']
  else [c]

def escape (cs : List Char) : List Char :=
  cs.flatMap escapeChar

def fragment? : Html.Piece → Option String
  | .text s => if Text.isAllBlank s then none else some (String.ofList (escape s.toList))
  | .comment => none
  | .element written => some written

def fragments (text : String) : List String :=
  if Text.isAllBlank text then [] else (Html.bodyOf text).filterMap fragment?

end Document
end Parley
