import Parley.Html.Mode.Head

/-!
# The body of a page

What most tags do: blocks end the paragraph they follow, formatting is taken up
again around text, and an end tag closes what it names.
-/

namespace Parley
namespace Html

/-!
# Names
-/

def blockNames : List String :=
  ["address", "article", "aside", "blockquote", "center", "details", "dialog", "dir", "div", "dl",
   "fieldset", "figcaption", "figure", "footer", "header", "hgroup", "main", "menu", "nav", "ol",
   "p", "search", "section", "summary", "ul"]

/-- Elements whose end tag closes whatever stands open in them. -/
def closedBlockNames : List String :=
  ["address", "article", "aside", "blockquote", "button", "center", "details", "dialog", "dir",
   "div", "dl", "fieldset", "figcaption", "figure", "footer", "header", "hgroup", "listing",
   "main", "menu", "nav", "ol", "pre", "search", "section", "summary", "ul"]

def formattingNames : List String :=
  ["b", "big", "code", "em", "font", "i", "s", "small", "strike", "strong", "tt", "u"]

def tablePartNames : List String :=
  ["caption", "col", "colgroup", "tbody", "td", "tfoot", "th", "thead", "tr"]

/-!
# Start tags
-/

def isHidden (tag : Tag) : Bool :=
  match tag.attribute? "type" with
  | some kind => Text.eqIgnoreCase kind "hidden"
  | none => false

def openBlock (tag : Tag) : Build Unit := do
  closeParagraphInScope
  openPage tag

def openHeading (tag : Tag) : Build Unit := do
  closeParagraphInScope
  if (← get).current.label.isHeading then pop
  openPage tag

def openForm (tag : Tag) : Build Unit := do
  let inTemplate := (← get).hasOpen "template"
  if (← get).form.isNone || inTemplate then
    closeParagraphInScope
    let id ← openElement ⟨.page, tag.name⟩ tag.attributes
    if !inTemplate then modify fun b => { b with form := some id }

def itemToClose (closes : List String) : List Open → Option String
  | [] => none
  | o :: rest =>
    if o.label.isPageIn closes then some o.label.name
    else if o.label.stopsItems then none
    else itemToClose closes rest

def openItem (tag : Tag) : Build Unit := do
  barFrames
  let closes := if tag.name = "li" then ["li"] else ["dd", "dt"]
  match itemToClose closes (← get).opened with
  | some name => do
    popImpliedBut name
    popThroughNamed name
  | none => pure ()
  closeParagraphInScope
  openPage tag

def openButton (tag : Tag) : Build Unit := do
  if (← get).inScope Label.bounds "button" then
    popImplied
    popThroughNamed "button"
  takeUpFormatting
  openPage tag
  barFrames

def openUnbroken (tag : Tag) : Build Unit := do
  takeUpFormatting
  if (← get).inScope Label.bounds "nobr" then
    closeFormatting "nobr"
    takeUpFormatting
  openFormatting tag

def openChoice (tag : Tag) : Build Unit := do
  takeUpFormatting
  openPage tag
  barFrames
  modify fun b =>
    let tabular := [Mode.inTable, .inCaption, .inTableBody, .inRow, .inCell].contains b.mode
    { b with mode := if tabular then .inChoiceInTable else .inChoice }

def openOption (tag : Tag) : Build Unit := do
  if (← get).currentIs "option" then pop
  takeUpFormatting
  openPage tag

def openRuby (tag : Tag) (but : String) : Build Unit := do
  if (← get).inScope Label.bounds "ruby" then popImpliedBut but
  openPage tag

def openForeign (language : Language) (name : String) (tag : Tag) : Build Unit := do
  let label : Label := ⟨language, name⟩
  let attributes := attributesIn language tag.attributes
  if tag.selfClosing then discard (addElement label attributes)
  else discard (openElement label attributes)

/-- A page may still become one of frames as long as its body has shown nothing. -/
def turnToFrames : Build Unit := do
  let b ← get
  match b.body? with
  | some body =>
    if b.framesAllowed then
      set { b with forest := b.forest.detach body.id, mode := .frames }
  | none => pure ()

def addVoid (tag : Tag) : Build Unit := do
  takeUpFormatting
  addTag tag

def startInBody (tag : Tag) : Build Outcome := do
  let name := tag.name
  if metadataNames.contains name then return ← headElement tag
  else if name = "html" then pure ()
  else if name = "body" then
    let b ← get
    if b.body?.isSome && !b.hasOpen "template" then barFrames
  else if name = "frameset" then turnToFrames
  else if blockNames.contains name then openBlock tag
  else if Label.headings.contains name then openHeading tag
  else if name = "pre" || name = "listing" then
    openBlock tag
    barFrames
    modify fun b => { b with skipsNewline := true }
  else if name = "form" then openForm tag
  else if ["li", "dd", "dt"].contains name then openItem tag
  else if name = "plaintext" then
    openBlock tag
    return .read .plain
  else if name = "button" then openButton tag
  else if name = "a" then
    closeAnchor
    takeUpFormatting
    openFormatting tag
  else if formattingNames.contains name then
    takeUpFormatting
    openFormatting tag
  else if name = "nobr" then openUnbroken tag
  else if ["applet", "marquee", "object"].contains name then
    takeUpFormatting
    openPage tag
    addMarker
    barFrames
  else if name = "table" then
    if !(← get).old then closeParagraphInScope
    openPage tag
    barFrames
    setMode .inTable
  else if ["area", "br", "embed", "img", "keygen", "wbr"].contains name then
    addVoid tag
    barFrames
  else if name = "input" then
    addVoid tag
    if !isHidden tag then barFrames
  else if ["param", "source", "track"].contains name then addTag tag
  else if name = "hr" then
    closeParagraphInScope
    addTag tag
    barFrames
  else if name = "image" then
    addVoid { tag with name := "img" }
    barFrames
  else if name = "textarea" then
    modify fun b => { b with skipsNewline := true }
    barFrames
    return ← openText tag (.escapable name)
  else if name = "xmp" then
    closeParagraphInScope
    takeUpFormatting
    barFrames
    return ← openText tag (.raw name)
  else if name = "iframe" then
    barFrames
    return ← openText tag (.raw name)
  else if name = "noembed" || name = "noscript" then return ← openText tag (.raw name)
  else if name = "select" then openChoice tag
  else if name = "optgroup" || name = "option" then openOption tag
  else if name = "rb" || name = "rtc" then openRuby tag ""
  else if name = "rp" || name = "rt" then openRuby tag "rtc"
  else if name = "math" then openForeign .formula name tag
  else if name = "svg" then openForeign .drawing name tag
  else if name = "frame" || name = "head" || tablePartNames.contains name then pure ()
  else
    takeUpFormatting
    openPage tag
  return .done

/-!
# End tags
-/

def closeInScope (name : String) : Build Unit := do
  if (← get).inScope Label.bounds name then
    popImplied
    popThroughNamed name

def closeForm : Build Unit := do
  let b ← get
  if b.hasOpen "template" then closeInScope "form"
  else
    set { b with form := none }
    match b.form with
    | some id =>
      if Builder.within Label.bounds (fun o => o.id == id) b.opened then
        popImplied
        forgetOpen id
    | none => pure ()

def endParagraph : Build Unit := do
  if !(← get).inScope Label.boundsButtons "p" then openNamed "p"
  closeParagraph

def closeItem (name : String) : Build Unit := do
  let bound := if name = "li" then Label.boundsItems else Label.bounds
  if (← get).inScope bound name then
    popImpliedBut name
    popThroughNamed name

def closeHeading : Build Unit := do
  if (← get).inScopeIn Label.bounds Label.isHeading then
    popImplied
    popThrough Label.isHeading

def endInBody (name : String) : Build Outcome := do
  if name = "template" then return ← endTemplate
  else if name = "body" then
    if (← get).inScope Label.bounds "body" then setMode .afterBody
  else if name = "html" then
    if (← get).inScope Label.bounds "body" then return .again .afterBody
  else if closedBlockNames.contains name then closeInScope name
  else if name = "form" then closeForm
  else if name = "p" then endParagraph
  else if ["li", "dd", "dt"].contains name then closeItem name
  else if Label.headings.contains name then closeHeading
  else if name = "a" || name = "nobr" || formattingNames.contains name then closeFormatting name
  else if ["applet", "marquee", "object"].contains name then
    if (← get).inScope Label.bounds name then
      closeInScope name
      clearToMarker
  else if name = "br" then
    addVoid (Tag.plain "br")
    barFrames
  else closeOrdinary name
  return .done

/-!
# Tokens
-/

def readInBody (token : Token) : Build Outcome := do
  match token with
  | .startTag tag => startInBody tag
  | .endTag name => endInBody name
  | .char c => do
    takeUpFormatting
    if !isBlankChar c then barFrames
    addText c
    return .done
  | .comment text => do
    addComment text
    return .done
  | _ => return .done

def readText (token : Token) : Build Outcome := do
  match token with
  | .char c => addText c
  | .endTag _ => do
    pop
    modify fun b => { b with mode := b.resume }
  | _ => pure ()
  return .done

def readAfterBody (token : Token) : Build Outcome := do
  match token with
  | .char c => if isBlankChar c then readInBody token else return .again .inBody
  | .comment _ => return .done
  | .startTag tag => if tag.name = "html" then return .done else return .again .inBody
  | .endTag name => if name = "html" then return .done else return .again .inBody
  | _ => return .again .inBody

end Html
end Parley
