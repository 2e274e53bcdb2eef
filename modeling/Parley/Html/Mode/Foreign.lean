import Parley.Html.Mode.Template

/-!
# In drawings and formulas

Elements of a foreign language keep theirs: their tags open elements of the
language, save for the ones that only a page can hold, which end it.
-/

namespace Parley
namespace Html

def readIn (mode : Mode) (token : Token) : Build Outcome :=
  match mode with
  | .start => readStart token
  | .beforeHead => readBeforeHead token
  | .inHead => readInHead token
  | .afterHead => readAfterHead token
  | .inBody => readInBody token
  | .text => readText token
  | .inTable => readInTable token
  | .inTableText => readInTableText token
  | .inCaption => readInCaption token
  | .inColumns => readInColumns token
  | .inTableBody => readInTableBody token
  | .inRow => readInRow token
  | .inCell => readInCell token
  | .inChoice => readInChoice token
  | .inChoiceInTable => readInChoiceInTable token
  | .inTemplate => readInTemplate token
  | .afterBody => readAfterBody token
  | .frames => return .done

def Builder.keepsForeign (b : Builder) (token : Token) : Bool :=
  let label := b.current.label
  label.isForeign &&
    match token with
    | .startTag tag =>
      !label.isDrawingHost &&
        !(label.isFormulaText && !(["mglyph", "malignmark"].contains tag.name)) &&
        !(label == ⟨.formula, "annotation-xml"⟩ && tag.name == "svg")
    | .char _ => !(label.isFormulaText || label.isDrawingHost)
    | .zero => !(label.isFormulaText || label.isDrawingHost)
    | _ => true

/-- Ends all foreign elements that hold no page content, and reads the token there. -/
def breakOut (token : Token) : Build Outcome := do
  popTo fun l => !l.isForeign || l.isFormulaText || l.isDrawingHost
  readIn (← get).mode token

/-- What an end tag closes: the elements from the first of that name on, in any case, unless a
page element other than the innermost comes first. -/
inductive ForeignEnd where
  | nothing
  | through (id : Nat)
  | page

def foreignEnd (name : String) (isFirst : Bool) : List Open → ForeignEnd
  | [] => .nothing
  | [_] => .nothing
  | o :: rest =>
    if !isFirst && !o.label.isForeign then .page
    else if Text.eqIgnoreCase o.label.name name then .through o.id
    else foreignEnd name false rest

def endForeign (name : String) : Build Outcome := do
  match foreignEnd name true (← get).opened with
  | .nothing => return .done
  | .through id => do
    modify fun b => { b with opened := (b.opened.dropWhile fun o => o.id != id).tail }
    return .done
  | .page => readIn (← get).mode (.endTag name)

def readForeign (token : Token) : Build Outcome := do
  match token with
  | .startTag tag =>
    if breaksOut tag then breakOut token
    else
      let language := (← get).current.label.language
      openForeign language (nameIn language tag.name) tag
      return .done
  | .endTag name =>
    if name = "br" || name = "p" then breakOut token else endForeign name
  | .char c => do
    if !isBlankChar c then barFrames
    addText c
    return .done
  | .zero => do
    addText replacement
    return .done
  | .comment text => do
    addComment text
    return .done
  | _ => return .done

end Html
end Parley
