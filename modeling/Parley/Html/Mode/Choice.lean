import Parley.Html.Mode.Table

/-!
# Choices

A choice holds options and groups of options, with rules between them, and
text. Other tags are passed over, or end the choice.
-/

namespace Parley
namespace Html

def closeChoice : Build Unit :=
  popThroughNamed "select"

def hasChoice : Build Bool := do
  return (← get).inScope Label.boundsChoices "select"

def closeIfCurrent (name : String) : Build Unit := do
  if (← get).currentIs name then pop

def startInChoice (tag : Tag) : Build Outcome := do
  let name := tag.name
  if name = "option" then
    closeIfCurrent "option"
    openPage tag
    return .done
  else if name = "optgroup" then
    closeIfCurrent "option"
    closeIfCurrent "optgroup"
    openPage tag
    return .done
  else if name = "hr" then
    closeIfCurrent "option"
    closeIfCurrent "optgroup"
    addTag tag
    return .done
  else if name = "select" then
    if ← hasChoice then
      closeChoice
      resetMode
    return .done
  else if ["input", "keygen", "textarea"].contains name then
    if ← hasChoice then
      closeChoice
      let b ← get
      return .again (b.modeOf b.opened)
    else return .done
  else if name = "script" || name = "template" then headElement tag
  else return .done

def endInChoice (name : String) : Build Outcome := do
  if name = "optgroup" then
    match (← get).opened with
    | first :: second :: _ =>
      if first.label.isPage "option" && second.label.isPage "optgroup" then pop
    | _ => pure ()
    closeIfCurrent "optgroup"
    return .done
  else if name = "option" then
    closeIfCurrent "option"
    return .done
  else if name = "select" then
    if ← hasChoice then
      closeChoice
      resetMode
    return .done
  else if name = "template" then endTemplate
  else return .done

def readInChoice (token : Token) : Build Outcome := do
  match token with
  | .startTag tag => startInChoice tag
  | .endTag name => endInChoice name
  | .char c => do
    addText c
    return .done
  | .comment text => do
    addComment text
    return .done
  | _ => return .done

def readInChoiceInTable (token : Token) : Build Outcome := do
  let isPart (name : String) : Bool :=
    ["caption", "table", "tbody", "tfoot", "thead", "tr", "td", "th"].contains name
  let leave : Build Outcome := do
    closeChoice
    let b ← get
    return .again (b.modeOf b.opened)
  match token with
  | .startTag tag => if isPart tag.name then leave else readInChoice token
  | .endTag name =>
    if isPart name then
      if (← get).inScope Label.boundsTables name then leave else return .done
    else readInChoice token
  | _ => readInChoice token

end Html
end Parley
