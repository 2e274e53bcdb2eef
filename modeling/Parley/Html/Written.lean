import Parley.Html.Forest

/-!
# Written pages

The text of a node. Void elements have no end tag, some elements have their
text as it is, and everywhere else four characters are written as references.

A node is written on a walk along the links: from each node to its first child,
from there to the next sibling, and after the last sibling to the parent, until
the node where the walk began is left. The tag of an element is written where
it is entered, its end tag where it is left.
-/

namespace Parley
namespace Html

/-!
# Escaping
-/

def escapeTextChar (c : Char) : List Char :=
  if c = '&' then "&amp;".toList
  else if c = '<' then "&lt;".toList
  else if c = '>' then "&gt;".toList
  else if c = Char.ofNat 0xA0 then "&nbsp;".toList
  else [c]

def escapeValueChar (c : Char) : List Char :=
  if c = '&' then "&amp;".toList
  else if c = '"' then "&quot;".toList
  else if c = Char.ofNat 0xA0 then "&nbsp;".toList
  else [c]

def escapeWith (escape : Char → List Char) (s : String) : String :=
  String.ofList (s.toList.flatMap escape)

/-!
# Tags
-/

def Attribute.write (a : Attribute) : String :=
  " " ++ a.name ++ "=\"" ++ escapeWith escapeValueChar a.value ++ "\""

def openTag (label : Label) (attributes : List Attribute) : String :=
  "<" ++ label.name ++ String.join (attributes.map Attribute.write) ++ ">"

def closeTag (label : Label) : String :=
  "</" ++ label.name ++ ">"

/-!
# Walks
-/

inductive Turn where
  | enter (id : Nat)
  | leave (id : Nat)
  deriving DecidableEq, Repr

namespace Forest

def turn? (f : Forest) (root : Nat) : Turn → Option Turn
  | .enter id =>
    match f.children? id with
    | some ends => some (.enter ends.first)
    | none => some (.leave id)
  | .leave id =>
    if id = root then none
    else
      match f.next? id with
      | some next => some (.enter next)
      | none => (f.parent? id).map .leave

end Forest

/-!
# Writing
-/

/-- What has been written, and the elements entered and not left yet, innermost first. -/
structure Writing where
  text : String
  entered : List Label

namespace Writing

def isVerbatim (w : Writing) : Bool :=
  match w.entered with
  | label :: _ => label.isVerbatim
  | [] => false

def turn (f : Forest) (w : Writing) : Turn → Writing
  | .enter id =>
    match f.shape? id with
    | some (.element label attributes) =>
      ⟨w.text ++ openTag label attributes, label :: w.entered⟩
    | some (.text s) =>
      { w with text := w.text ++ if w.isVerbatim then s else escapeWith escapeTextChar s }
    | some (.comment s) => { w with text := w.text ++ "<!--" ++ s ++ "-->" }
    | none => w
  | .leave id =>
    match f.shape? id with
    | some (.element label _) =>
      ⟨if label.isVoid then w.text else w.text ++ closeTag label, w.entered.tail⟩
    | _ => w

end Writing

namespace Forest

def writeFrom (f : Forest) (root : Nat) : Nat → Turn → Writing → String
  | 0, _, w => w.text
  | n + 1, turn, w =>
    let w := w.turn f turn
    match f.turn? root turn with
    | none => w.text
    | some next => f.writeFrom root n next w

/-- The text of a node. No walk that ends makes the same turn twice. -/
def write (f : Forest) (id : Nat) : String :=
  f.writeFrom id (2 * f.vertices.size) (.enter id) ⟨"", []⟩

end Forest
end Html
end Parley
