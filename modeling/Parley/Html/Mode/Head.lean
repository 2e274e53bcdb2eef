import Parley.Html.Adoption

/-!
# The head of a page

Elements of the head are understood everywhere. Text and comments in the head
itself are never shown, so they are passed over.
-/

namespace Parley
namespace Html

def metadataNames : List String :=
  ["base", "basefont", "bgsound", "link", "meta", "noframes", "script", "style", "template",
   "title"]

def headElement (tag : Tag) : Build Outcome := do
  if ["base", "basefont", "bgsound", "link", "meta"].contains tag.name then
    addTag tag
    return .done
  else if tag.name = "title" then openText tag (.escapable tag.name)
  else if tag.name = "script" then openText tag (.script .bare)
  else if tag.name = "template" then
    openPage tag
    addMarker
    barFrames
    modify fun b => { b with mode := .inTemplate, templates := .inTemplate :: b.templates }
    return .done
  else openText tag (.raw tag.name)

def endTemplate : Build Outcome := do
  if (← get).hasOpen "template" then
    popWhile Label.endsItselfInTemplate
    popThroughNamed "template"
    clearToMarker
    modify fun b => { b with templates := b.templates.tail }
    resetMode
  return .done

/-- End tags that count even where their element cannot be open. -/
def endsAnywhere (name : String) : Bool :=
  ["body", "html", "br"].contains name

/-!
# Before the body
-/

def isBlankChar (c : Char) : Bool :=
  isSpace c || c == '\r'

def isBlankToken : Token → Bool
  | .char c => isBlankChar c
  | .comment _ => true
  | _ => false

def readStart (token : Token) : Build Outcome := do
  match token with
  | .doctype old =>
    modify fun b => { b with old := old, mode := .beforeHead }
    return .done
  | _ =>
    if isBlankToken token then return .done
    else
      modify fun b => { b with old := true }
      return .again .beforeHead

def openHead (tag : Tag) : Build Unit := do
  let id ← openElement ⟨.page, "head"⟩ tag.attributes
  modify fun b => { b with head := some id }

def readBeforeHead (token : Token) : Build Outcome := do
  match token with
  | .startTag tag =>
    if tag.name = "html" then return .done
    else if tag.name = "head" then
      openHead tag
      setMode .inHead
      return .done
  | .endTag name =>
    if !(name == "head" || endsAnywhere name) then return .done
  | _ => if isBlankToken token then return .done
  openHead (Tag.plain "head")
  return .again .inHead

def readInHead (token : Token) : Build Outcome := do
  match token with
  | .startTag tag =>
    if tag.name = "html" || tag.name = "head" then return .done
    else if tag.name = "noscript" || metadataNames.contains tag.name then
      return ← headElement tag
  | .endTag name =>
    if name = "head" then
      pop
      setMode .afterHead
      return .done
    else if name = "template" then return ← endTemplate
    else if !endsAnywhere name then return .done
  | _ => if isBlankToken token then return .done
  pop
  return .again .afterHead

def lateHeadElement (tag : Tag) : Build Outcome := do
  match (← get).head with
  | none => headElement tag
  | some head => do
    modify fun b => { b with opened := ⟨head, ⟨.page, "head"⟩⟩ :: b.opened }
    let outcome ← headElement tag
    forgetOpen head
    return outcome

def readAfterHead (token : Token) : Build Outcome := do
  match token with
  | .startTag tag =>
    if tag.name = "html" || tag.name = "head" then return .done
    else if tag.name = "body" then
      openPage tag
      barFrames
      setMode .inBody
      return .done
    else if tag.name = "frameset" then
      setMode .frames
      return .done
    else if metadataNames.contains tag.name then return ← lateHeadElement tag
  | .endTag name =>
    if name = "template" then return ← endTemplate
    else if !endsAnywhere name then return .done
  | _ => if isBlankToken token then return .done
  openNamed "body"
  return .again .inBody

end Html
end Parley
