import Parley.Html.Foreign
import Parley.Html.Forest
import Parley.Html.Token

/-!
# Building a page

The state of a page that is being built: its nodes, the elements that are open,
innermost first, and the formatting that is to be taken up again in every block
until its end tag comes, latest first.
-/

namespace Parley
namespace Html

inductive Mode where
  | start
  | beforeHead
  | inHead
  | afterHead
  | inBody
  | text
  | inTable
  | inTableText
  | inCaption
  | inColumns
  | inTableBody
  | inRow
  | inCell
  | inChoice
  | inChoiceInTable
  | inTemplate
  | afterBody
  /-- A page of frames has no body, and nothing that follows gives it one. -/
  | frames
  deriving DecidableEq, Repr

structure Open where
  id : Nat
  label : Label

inductive Formatting where
  | marker
  | element (id : Nat) (tag : Tag)

structure Builder where
  forest : Forest
  opened : List Open
  formatting : List Formatting
  mode : Mode
  /-- The mode to go back to after text. -/
  resume : Mode
  templates : List Mode
  head : Option Nat
  form : Option Nat
  framesAllowed : Bool
  fostering : Bool
  skipsNewline : Bool
  old : Bool
  /-- Characters read in a table that have no place yet, latest first. -/
  waiting : List Char

/-- What becomes of a token: it is used up, it is read again in another mode, or it is used up and
decides how the text after it is read. -/
inductive Outcome where
  | done
  | again (mode : Mode)
  | read (content : Content)

abbrev Build := StateM Builder

namespace Builder

def rootLabel : Label := ⟨.page, "html"⟩

def empty : Builder where
  forest := .single (.element rootLabel [])
  opened := [⟨0, rootLabel⟩]
  formatting := []
  mode := .start
  resume := .start
  templates := []
  head := none
  form := none
  framesAllowed := true
  fostering := false
  skipsNewline := false
  old := false
  waiting := []

/-!
# Looking at the open elements
-/

def current (b : Builder) : Open :=
  b.opened.headD ⟨0, rootLabel⟩

def currentIs (b : Builder) (name : String) : Bool :=
  b.current.label.isPage name

def within (bound : Label → Bool) (wanted : Open → Bool) : List Open → Bool
  | [] => false
  | o :: rest => wanted o || (!bound o.label && within bound wanted rest)

def inScope (b : Builder) (bound : Label → Bool) (name : String) : Bool :=
  within bound (fun o => o.label.isPage name) b.opened

def inScopeIn (b : Builder) (bound wanted : Label → Bool) : Bool :=
  within bound (fun o => wanted o.label) b.opened

def hasOpen (b : Builder) (name : String) : Bool :=
  b.opened.any fun o => o.label.isPage name

def isOpen (b : Builder) (id : Nat) : Bool :=
  b.opened.any fun o => o.id == id

def body? (b : Builder) : Option Open :=
  match b.opened.reverse with
  | _ :: o :: _ => if o.label.isPage "body" then some o else none
  | _ => none

def modeOf (b : Builder) : List Open → Mode
  | [] => .inBody
  | o :: rest =>
    if o.label.isForeign then b.modeOf rest
    else
      match o.label.name with
      | "select" =>
        match rest.find? fun o => o.label.isPageIn ["template", "table"] with
        | some found => if found.label.isPage "table" then .inChoiceInTable else .inChoice
        | none => .inChoice
      | "td" => if rest.isEmpty then b.modeOf rest else .inCell
      | "th" => if rest.isEmpty then b.modeOf rest else .inCell
      | "tr" => .inRow
      | "tbody" => .inTableBody
      | "thead" => .inTableBody
      | "tfoot" => .inTableBody
      | "caption" => .inCaption
      | "colgroup" => .inColumns
      | "table" => .inTable
      | "template" => b.templates.headD .inBody
      | "head" => if rest.isEmpty then b.modeOf rest else .inHead
      | "body" => .inBody
      | "frameset" => .frames
      | "html" => if b.head.isNone then .beforeHead else .afterHead
      | _ => b.modeOf rest

end Builder

/-!
# Closing elements
-/

def setMode (mode : Mode) : Build Unit :=
  modify fun b => { b with mode := mode }

def resetMode : Build Unit :=
  modify fun b => { b with mode := b.modeOf b.opened }

def pop : Build Unit :=
  modify fun b => { b with opened := b.opened.tail }

def popThrough (wanted : Label → Bool) : Build Unit :=
  modify fun b => { b with opened := (b.opened.dropWhile fun o => !wanted o.label).tail }

def popThroughNamed (name : String) : Build Unit :=
  popThrough fun l => l.isPage name

def popTo (wanted : Label → Bool) : Build Unit :=
  modify fun b => { b with opened := b.opened.dropWhile fun o => !wanted o.label }

def popWhile (ends : Label → Bool) : Build Unit :=
  modify fun b => { b with opened := b.opened.dropWhile fun o => ends o.label }

def popImpliedBut (name : String) : Build Unit :=
  popWhile fun l => l.endsItself && !l.isPage name

def popImplied : Build Unit :=
  popWhile Label.endsItself

def closeParagraph : Build Unit := do
  popImpliedBut "p"
  popThroughNamed "p"

def closeParagraphInScope : Build Unit := do
  if (← get).inScope Label.boundsButtons "p" then closeParagraph

def forgetOpen (id : Nat) : Build Unit :=
  modify fun b => { b with opened := b.opened.eraseP fun o => o.id == id }

def barFrames : Build Unit :=
  modify fun b => { b with framesAllowed := false }

/-!
# Adding nodes
-/

/-- Where a node goes: into an element, or before a table that has a parent, and else into the
element around it. -/
inductive Place where
  | inside (id : Nat)
  | beside (table around : Nat)

def fosterPlace : List Open → Place
  | [] => .inside 0
  | o :: rest =>
    if o.label.isPage "template" then .inside o.id
    else if o.label.isPage "table" then .beside o.id (rest.headD o).id
    else fosterPlace rest

def Builder.placeIn (b : Builder) (target : Open) : Place :=
  if b.fostering && target.label.isTablePart then fosterPlace b.opened else .inside target.id

def Forest.put (f : Forest) (place : Place) (id : Nat) : Forest :=
  match place with
  | .inside parent => f.append parent id
  | .beside table around =>
    if (f.parent? table).isSome then f.insertBefore table id else f.append around id

def Forest.putText (f : Forest) (place : Place) (c : Char) : Forest :=
  match place with
  | .inside parent => f.appendText parent c
  | .beside table around =>
    if (f.parent? table).isSome then f.insertTextBefore table c else f.appendText around c

def createNode (shape : Shape) : Build Nat :=
  modifyGet fun b => (b.forest.vertices.size, { b with forest := b.forest.create shape })

def putNode (target : Open) (id : Nat) : Build Unit :=
  modify fun b => { b with forest := b.forest.put (b.placeIn target) id }

def addText (c : Char) : Build Unit :=
  modify fun b =>
    let place := b.placeIn b.current
    { b with forest := b.forest.putText place c }

def addComment (text : String) : Build Unit := do
  let id ← createNode (.comment text)
  putNode (← get).current id

def addElement (label : Label) (attributes : List Attribute) : Build Nat := do
  let id ← createNode (.element label attributes)
  putNode (← get).current id
  return id

def openElement (label : Label) (attributes : List Attribute) : Build Nat := do
  let id ← addElement label attributes
  modify fun b => { b with opened := ⟨id, label⟩ :: b.opened }
  return id

def openPage (tag : Tag) : Build Unit :=
  discard (openElement ⟨.page, tag.name⟩ tag.attributes)

def addTag (tag : Tag) : Build Unit :=
  discard (addElement ⟨.page, tag.name⟩ tag.attributes)

def openNamed (name : String) : Build Unit :=
  openPage (Tag.plain name)

def openText (tag : Tag) (content : Content) : Build Outcome := do
  openPage tag
  modify fun b => { b with resume := b.mode, mode := .text }
  return .read content

/-!
# Formatting
-/

def Formatting.isMarker : Formatting → Bool
  | .marker => true
  | .element _ _ => false

def Formatting.isFor (id : Nat) : Formatting → Bool
  | .marker => false
  | .element k _ => k == id

def Formatting.hasName (name : String) : Formatting → Bool
  | .marker => false
  | .element _ tag => tag.name == name

namespace Builder

def liveFormatting (b : Builder) : List Formatting :=
  b.formatting.takeWhile fun e => !e.isMarker

def isFormatting (b : Builder) (id : Nat) : Bool :=
  b.formatting.any (Formatting.isFor id)

def isSettled (b : Builder) : Formatting → Bool
  | .marker => true
  | .element id _ => b.isOpen id

end Builder

def addMarker : Build Unit :=
  modify fun b => { b with formatting := .marker :: b.formatting }

def clearToMarker : Build Unit :=
  modify fun b => { b with formatting := (b.formatting.dropWhile fun e => !e.isMarker).tail }

def forgetFormatting (id : Nat) : Build Unit :=
  modify fun b => { b with formatting := b.formatting.eraseP (Formatting.isFor id) }

/-- Opens the elements of formatting that is not open any more, oldest first. -/
def takeUp : List Formatting → Build Unit
  | [] => pure ()
  | .marker :: rest => takeUp rest
  | .element _ tag :: rest => do
    let id ← openElement ⟨.page, tag.name⟩ tag.attributes
    modify fun b => { b with formatting := .element id tag :: b.formatting }
    takeUp rest

def takeUpFormatting : Build Unit := do
  let b ← get
  let dropped := b.formatting.takeWhile fun e => !b.isSettled e
  set { b with formatting := b.formatting.drop dropped.length }
  takeUp dropped.reverse

/-- Without the oldest of three or more entries like the tag, among those since the last marker. -/
def dropThird (tag : Tag) (entries : List Formatting) : List Formatting :=
  let isLike e := match e with
    | .marker => false
    | .element _ t => t.alike tag
  let live := entries.takeWhile fun e => !e.isMarker
  if 3 ≤ live.countP isLike then
    (live.reverse.eraseP isLike).reverse ++ entries.drop live.length
  else entries

def openFormatting (tag : Tag) : Build Unit := do
  modify fun b => { b with formatting := dropThird tag b.formatting }
  let id ← openElement ⟨.page, tag.name⟩ tag.attributes
  modify fun b => { b with formatting := .element id tag :: b.formatting }

end Html
end Parley
