import Parley.Html.Tag

/-!
# Elements

An element has a name in one of three languages: pages, drawings and formulas.
The classes below decide how far a tag reaches when it opens or closes
something; unless they say otherwise they hold elements of pages only.
-/

namespace Parley
namespace Html

inductive Language where
  | page
  | drawing
  | formula
  deriving DecidableEq, Repr

structure Label where
  language : Language
  name : String
  deriving DecidableEq, Repr

namespace Label

def isPage (l : Label) (name : String) : Bool :=
  l.language == .page && l.name == name

def isPageIn (l : Label) (names : List String) : Bool :=
  l.language == .page && names.contains l.name

/-!
# Foreign elements that hold page content
-/

def isFormulaText (l : Label) : Bool :=
  l.language == .formula && ["mi", "mo", "mn", "ms", "mtext"].contains l.name

def isDrawingHost (l : Label) : Bool :=
  l.language == .drawing && ["foreignObject", "desc", "title"].contains l.name

def isForeign (l : Label) : Bool :=
  l.language != .page

/-!
# Scopes
-/

def bounds (l : Label) : Bool :=
  l.isPageIn ["applet", "caption", "html", "table", "td", "th", "marquee", "object", "template"] ||
    l.isFormulaText || l.isDrawingHost

def boundsItems (l : Label) : Bool :=
  l.bounds || l.isPageIn ["ol", "ul"]

def boundsButtons (l : Label) : Bool :=
  l.bounds || l.isPage "button"

def boundsTables (l : Label) : Bool :=
  l.isPageIn ["html", "table", "template"]

def boundsChoices (l : Label) : Bool :=
  !l.isPageIn ["optgroup", "option"]

/-!
# Table structure
-/

def holdsRows (l : Label) : Bool :=
  l.isPageIn ["tbody", "tfoot", "thead", "template", "html"]

def holdsCells (l : Label) : Bool :=
  l.isPageIn ["tr", "template", "html"]

def isCell (l : Label) : Bool :=
  l.isPageIn ["td", "th"]

def isTablePart (l : Label) : Bool :=
  l.isPageIn ["table", "tbody", "tfoot", "thead", "tr"]

/-!
# Ends that need no tag
-/

def endsItself (l : Label) : Bool :=
  l.isPageIn ["dd", "dt", "li", "option", "optgroup", "p", "rb", "rp", "rt", "rtc"]

def endsItselfInTemplate (l : Label) : Bool :=
  l.endsItself ||
    l.isPageIn ["caption", "colgroup", "tbody", "td", "tfoot", "th", "thead", "tr"]

/-!
# Other classes
-/

def headings : List String := ["h1", "h2", "h3", "h4", "h5", "h6"]

def isHeading (l : Label) : Bool :=
  l.isPageIn headings

/-- Elements that end tags of ordinary elements do not reach through. -/
def specialNames : List String :=
  ["address", "applet", "area", "article", "aside", "base", "basefont", "bgsound", "blockquote",
   "body", "br", "button", "caption", "center", "col", "colgroup", "dd", "details", "dir", "div",
   "dl", "dt", "embed", "fieldset", "figcaption", "figure", "footer", "form", "frame", "frameset",
   "h1", "h2", "h3", "h4", "h5", "h6", "head", "header", "hgroup", "hr", "html", "iframe", "img",
   "input", "isindex", "li", "link", "listing", "main", "marquee", "menu", "meta", "nav",
   "noembed", "noframes", "noscript", "object", "ol", "p", "param", "plaintext", "pre", "script",
   "section", "select", "source", "style", "summary", "table", "tbody", "td", "template",
   "textarea", "tfoot", "th", "thead", "title", "tr", "track", "ul", "wbr", "xmp"]

def isSpecial (l : Label) : Bool :=
  l.isPageIn specialNames

/-- Elements that a list item does not reach out of to close another. -/
def stopsItems (l : Label) : Bool :=
  l.isSpecial && !l.isPageIn ["address", "div", "p"]

def isVoid (l : Label) : Bool :=
  l.isPageIn ["area", "base", "basefont", "bgsound", "br", "col", "embed", "frame", "hr", "img",
    "input", "keygen", "link", "meta", "param", "source", "track", "wbr"]

def isVerbatim (l : Label) : Bool :=
  l.isPageIn ["style", "script", "xmp", "iframe", "noembed", "noframes", "plaintext"]

end Label
end Html
end Parley
