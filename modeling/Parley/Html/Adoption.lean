import Parley.Html.Builder

/-!
# Overlapping formatting

An end tag may close formatting while blocks opened inside it are still open.
The formatting is then split: it ends before the outermost such block, and a
copy of it takes over the content of the block. Formatting in between is copied
around the block, as long as it is at most three levels away.
-/

namespace Parley
namespace Html

def ordinary? (name : String) : List Open → Option Open
  | [] => none
  | o :: rest =>
    if o.label.isPage name then some o
    else if o.label.isSpecial then none
    else ordinary? name rest

def closeOrdinary (name : String) : Build Unit := do
  match ordinary? name (← get).opened with
  | none => pure ()
  | some found => do
    popImpliedBut name
    modify fun b => { b with opened := (b.opened.dropWhile fun o => o.id != found.id).tail }

/-- Copies of the formatting between a block and the formatting around it, innermost first, each
wrapped around what is inside it. Gives the elements that stay open, innermost first, the outermost
of the wrapped nodes, and the innermost of the copies. -/
def wrapBetween (count : Nat) (inner : Nat) (first : Option Nat) :
    List Open → Build (List Open × Nat × Option Nat)
  | [] => return ([], inner, first)
  | o :: rest => do
    match (← get).formatting.find? (Formatting.isFor o.id) with
    | some (.element _ tag) =>
      if 3 ≤ count then do
        forgetFormatting o.id
        wrapBetween (count + 1) inner first rest
      else do
        let copy ← createNode (.element ⟨.page, tag.name⟩ tag.attributes)
        modify fun b =>
          { b with
            formatting := b.formatting.map fun e =>
              if e.isFor o.id then .element copy tag else e
            forest := b.forest.append copy inner }
        let (stay, outer, first) ← wrapBetween (count + 1) copy (first.orElse fun _ => copy) rest
        return (⟨copy, ⟨.page, tag.name⟩⟩ :: stay, outer, first)
    | _ => wrapBetween (count + 1) inner first rest

def replaceFormatting (old : Nat) (entry : Formatting) (copy : Option Nat)
    (entries : List Formatting) : List Formatting :=
  match copy with
  | none => entries.map fun e => if e.isFor old then entry else e
  | some copy =>
    (entries.flatMap fun e => if e.isFor copy then [entry, e] else [e]).eraseP
      (Formatting.isFor old)

/-- Splits formatting around the outermost block in it: `inside` is open inside the block, `between`
from the block outward to the formatting, and `around` outside, each innermost first. -/
def splitAround (formatting : Open) (tag : Tag) (inside : List Open) (block : Open)
    (between around : List Open) : Build Unit := do
  let (between, outer, copy) ← wrapBetween 0 block.id none between
  modify fun b =>
    { b with
      opened := inside ++ block :: (between ++ formatting :: around)
      forest := b.forest.detach outer }
  putNode (around.headD ⟨0, Builder.rootLabel⟩) outer
  let id ← createNode (.element ⟨.page, tag.name⟩ tag.attributes)
  modify fun b =>
    { b with
      forest := (b.forest.moveChildren block.id id).append block.id id
      formatting := replaceFormatting formatting.id (.element id tag) copy b.formatting
      opened := inside ++ ⟨id, ⟨.page, tag.name⟩⟩ :: block :: (between ++ around) }

/-- Closes the latest formatting of the name once, and says whether there may be more to close. -/
def closeFormattingOnce (name : String) : Build Bool := do
  let b ← get
  match b.liveFormatting.find? (Formatting.hasName name) with
  | some (.element id tag) =>
    let above := b.opened.takeWhile fun o => o.id != id
    match b.opened.drop above.length with
    | [] => do
      forgetFormatting id
      return false
    | formatting :: around =>
      if !Builder.within Label.bounds (fun o => o.id == id) b.opened then return false
      else
        let between := (above.reverse.takeWhile fun o => !o.label.isSpecial).reverse
        match (above.take (above.length - between.length)).reverse with
        | [] => do
          set { b with opened := around }
          forgetFormatting id
          return false
        | block :: inside => do
          splitAround formatting tag inside.reverse block between around
          return true
  | _ => do
    closeOrdinary name
    return false

def closeFormattingWithin (name : String) : Nat → Build Unit
  | 0 => pure ()
  | n + 1 => do
    if ← closeFormattingOnce name then closeFormattingWithin name n

def closeFormatting (name : String) : Build Unit := do
  let b ← get
  if b.currentIs name && !b.isFormatting b.current.id then pop
  else closeFormattingWithin name 8

/-- Closes an anchor that is still to be taken up, before another one opens. -/
def closeAnchor : Build Unit := do
  match (← get).liveFormatting.find? (Formatting.hasName "a") with
  | some (.element id _) => do
    closeFormatting "a"
    forgetFormatting id
    forgetOpen id
  | _ => pure ()

end Html
end Parley
