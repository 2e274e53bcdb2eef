import Parley.Html.Mode.Body

/-!
# Tables

A table holds rows of cells. What has no place in it goes before it: it is
fostered. Text is held back until it is known to be more than blanks.
-/

namespace Parley
namespace Html

/-- Reads a token as in a body, with whatever it adds put before the table. -/
def foster (token : Token) : Build Outcome := do
  modify fun b => { b with fostering := true }
  let outcome ← readInBody token
  modify fun b => { b with fostering := false }
  return outcome

/-!
# Between the parts
-/

def isCharacter : Token → Bool
  | .char _ => true
  | .zero => true
  | _ => false

def holdText (token : Token) : Build Outcome := do
  let b ← get
  if b.current.label.isTablePart then
    set { b with resume := b.mode }
    return .again .inTableText
  else foster token

def startInTable (tag : Tag) : Build Outcome := do
  let name := tag.name
  if name = "caption" then
    popTo Label.boundsTables
    addMarker
    openPage tag
    setMode .inCaption
    return .done
  else if name = "colgroup" then
    popTo Label.boundsTables
    openPage tag
    setMode .inColumns
    return .done
  else if name = "col" then
    popTo Label.boundsTables
    openNamed "colgroup"
    return .again .inColumns
  else if ["tbody", "tfoot", "thead"].contains name then
    popTo Label.boundsTables
    openPage tag
    setMode .inTableBody
    return .done
  else if ["td", "th", "tr"].contains name then
    popTo Label.boundsTables
    openNamed "tbody"
    return .again .inTableBody
  else if name = "table" then
    if (← get).inScope Label.boundsTables "table" then
      popThroughNamed "table"
      let b ← get
      return .again (b.modeOf b.opened)
    else return .done
  else if ["style", "script", "template"].contains name then headElement tag
  else if name = "input" && isHidden tag then
    addTag tag
    return .done
  else if name = "form" then
    let b ← get
    if !b.hasOpen "template" && b.form.isNone then
      let id ← addElement ⟨.page, name⟩ tag.attributes
      modify fun b => { b with form := some id }
    return .done
  else foster (.startTag tag)

def endInTable (name : String) : Build Outcome := do
  if name = "table" then
    if (← get).inScope Label.boundsTables "table" then
      popThroughNamed "table"
      resetMode
    return .done
  else if name = "template" then endTemplate
  else if name = "body" || name = "html" || tablePartNames.contains name then return .done
  else foster (.endTag name)

def readInTable (token : Token) : Build Outcome := do
  match token with
  | .startTag tag => startInTable tag
  | .endTag name => endInTable name
  | .comment text => do
    addComment text
    return .done
  | _ => if isCharacter token then holdText token else return .done

def placeText : Build Unit := do
  let text := (← get).waiting.reverse
  modify fun b => { b with waiting := [] }
  if text.all isBlankChar then text.forM addText
  else text.forM fun c => discard (foster (.char c))

def readInTableText (token : Token) : Build Outcome := do
  match token with
  | .zero => return .done
  | .char c => do
    modify fun b => { b with waiting := c :: b.waiting }
    return .done
  | _ => do
    placeText
    return .again (← get).resume

/-!
# Captions and columns
-/

def closeCaption : Build Bool := do
  if (← get).inScope Label.boundsTables "caption" then
    popImplied
    popThroughNamed "caption"
    clearToMarker
    return true
  else return false

def readInCaption (token : Token) : Build Outcome := do
  match token with
  | .startTag tag =>
    if tablePartNames.contains tag.name then
      if ← closeCaption then return .again .inTable else return .done
    else readInBody token
  | .endTag name =>
    if name = "caption" then
      if ← closeCaption then setMode .inTable
      return .done
    else if name = "table" then
      if ← closeCaption then return .again .inTable else return .done
    else if name = "body" || name = "html" || tablePartNames.contains name then return .done
    else readInBody token
  | _ => readInBody token

def leaveColumns : Build Outcome := do
  if (← get).currentIs "colgroup" then
    pop
    return .again .inTable
  else return .done

def readInColumns (token : Token) : Build Outcome := do
  match token with
  | .char c =>
    if isBlankChar c then
      addText c
      return .done
    else leaveColumns
  | .comment text => do
    addComment text
    return .done
  | .startTag tag =>
    if tag.name = "html" then return .done
    else if tag.name = "col" then
      addTag tag
      return .done
    else if tag.name = "template" then headElement tag
    else leaveColumns
  | .endTag name =>
    if name = "colgroup" then
      if (← get).currentIs "colgroup" then
        pop
        setMode .inTable
      return .done
    else if name = "col" then return .done
    else if name = "template" then endTemplate
    else leaveColumns
  | _ => leaveColumns

/-!
# Rows and cells
-/

def leaveTableBody : Build Outcome := do
  let isPart := fun l : Label => l.isPageIn ["table", "tbody", "tfoot"]
  if (← get).inScopeIn Label.boundsTables isPart then
    popTo Label.holdsRows
    pop
    return .again .inTable
  else return .done

def readInTableBody (token : Token) : Build Outcome := do
  match token with
  | .startTag tag =>
    if tag.name = "tr" then
      popTo Label.holdsRows
      openPage tag
      setMode .inRow
      return .done
    else if tag.name = "th" || tag.name = "td" then
      popTo Label.holdsRows
      openNamed "tr"
      return .again .inRow
    else if tablePartNames.contains tag.name then leaveTableBody
    else readInTable token
  | .endTag name =>
    if ["tbody", "tfoot", "thead"].contains name then
      if (← get).inScope Label.boundsTables name then
        popTo Label.holdsRows
        pop
        setMode .inTable
      return .done
    else if name = "table" then leaveTableBody
    else readInTable token
  | _ => readInTable token

/-- Closes the row, if one is in scope, and goes on in the body of the table. -/
def leaveRow : Build Outcome := do
  if (← get).inScope Label.boundsTables "tr" then
    popTo Label.holdsCells
    pop
    return .again .inTableBody
  else return .done

def readInRow (token : Token) : Build Outcome := do
  match token with
  | .startTag tag =>
    if tag.name = "th" || tag.name = "td" then
      popTo Label.holdsCells
      openPage tag
      setMode .inCell
      addMarker
      return .done
    else if tablePartNames.contains tag.name then leaveRow
    else readInTable token
  | .endTag name =>
    if name = "tr" then
      if (← get).inScope Label.boundsTables "tr" then
        popTo Label.holdsCells
        pop
        setMode .inTableBody
      return .done
    else if name = "table" then leaveRow
    else if ["tbody", "tfoot", "thead"].contains name then
      if (← get).inScope Label.boundsTables name then leaveRow else return .done
    else readInTable token
  | _ => readInTable token

def closeCell : Build Unit := do
  popImplied
  popThrough Label.isCell
  clearToMarker

def readInCell (token : Token) : Build Outcome := do
  match token with
  | .startTag tag =>
    if tablePartNames.contains tag.name then
      if (← get).inScopeIn Label.boundsTables Label.isCell then
        closeCell
        return .again .inRow
      else return .done
    else readInBody token
  | .endTag name =>
    if name = "td" || name = "th" then
      if (← get).inScope Label.boundsTables name then
        popImplied
        popThroughNamed name
        clearToMarker
        setMode .inRow
      return .done
    else if ["body", "caption", "col", "colgroup", "html"].contains name then return .done
    else if ["table", "tbody", "tfoot", "thead", "tr"].contains name then
      if (← get).inScope Label.boundsTables name then
        closeCell
        return .again .inRow
      else return .done
    else readInBody token
  | _ => readInBody token

end Html
end Parley
