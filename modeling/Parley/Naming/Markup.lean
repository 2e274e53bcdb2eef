import Parley.Naming.Error

/-!
# Markup and parts

The markup a text is written in, and the part of a listing it is.
-/

namespace Parley

inductive Markup where
  | markdown
  | html
  | plain
  deriving DecidableEq, Repr

namespace Markup

def mime : Markup → String
  | .markdown => "text/markdown"
  | .html => "text/html"
  | .plain => "text/plain"

def ofMime? (text : String) : Option Markup :=
  if text = "text/markdown" then some .markdown
  else if text = "text/html" then some .html
  else if text = "text/plain" then some .plain
  else none

def ofString (text : String) : Except NamingError Markup :=
  match ofMime? text with
  | some m => .ok m
  | none =>
    if text = "markdown" then .ok .markdown
    else if text = "html" then .ok .html
    else if text = "plain" then .ok .plain
    else .error (.unknownMarkup text)

end Markup

inductive Part where
  | summary
  | description
  deriving DecidableEq, Repr

namespace Part

instance : Inhabited Part := ⟨.description⟩

def name : Part → String
  | .summary => "summary"
  | .description => "description"

def ofName? (text : String) : Option Part :=
  if text = "summary" then some .summary
  else if text = "description" then some .description
  else none

def ofString (text : String) : Except NamingError Part :=
  match ofName? text with
  | some p => .ok p
  | none => .error (.unknownPart text)

end Part
end Parley
