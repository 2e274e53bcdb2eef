import Parley.Html.Element

/-!
# Forests

The nodes of a page while it is built. A node is known by its number, and is
linked to its parent, to the siblings next to it, and to the first and the last
of its children, so that it can be moved. Text that is added next to text runs
together with it; nodes that are moved never do.

Links are changed one by one. When all children of a node go over to another,
only the first and the last of them are told their new parent, and what happens
to the others later still happens to the children of the old one.
-/

namespace Parley
namespace Html

inductive Shape where
  | element (label : Label) (attributes : List Attribute)
  | text (s : String)
  | comment (s : String)

structure Ends where
  first : Nat
  last : Nat
  deriving DecidableEq, Repr

def Ends.without (ends : Ends) (id : Nat) (previous next : Option Nat) : Option Ends :=
  if ends.first = ends.last then none
  else if ends.first = id then next.map fun first => { ends with first := first }
  else if ends.last = id then previous.map fun last => { ends with last := last }
  else some ends

structure Vertex where
  shape : Shape
  parent : Option Nat
  previous : Option Nat
  next : Option Nat
  children : Option Ends

def Vertex.ofShape (shape : Shape) : Vertex :=
  ⟨shape, none, none, none, none⟩

structure Forest where
  vertices : Array Vertex

namespace Forest

def single (shape : Shape) : Forest :=
  ⟨#[Vertex.ofShape shape]⟩

def shape? (f : Forest) (id : Nat) : Option Shape :=
  f.vertices[id]?.map Vertex.shape

def parent? (f : Forest) (id : Nat) : Option Nat :=
  f.vertices[id]?.bind Vertex.parent

def previous? (f : Forest) (id : Nat) : Option Nat :=
  f.vertices[id]?.bind Vertex.previous

def next? (f : Forest) (id : Nat) : Option Nat :=
  f.vertices[id]?.bind Vertex.next

def children? (f : Forest) (id : Nat) : Option Ends :=
  f.vertices[id]?.bind Vertex.children

def isText (f : Forest) (id : Nat) : Bool :=
  match f.shape? id with
  | some (.text _) => true
  | _ => false

/-- The nodes from one to another along the siblings, at most `n`. -/
def siblings (f : Forest) (last : Nat) : Nat → Option Nat → List Nat
  | _, none => []
  | 0, _ => []
  | n + 1, some id => id :: (if id = last then [] else f.siblings last n (f.next? id))

def childrenOf (f : Forest) (id : Nat) : List Nat :=
  match f.children? id with
  | none => []
  | some ends => f.siblings ends.last f.vertices.size (some ends.first)

/-!
# Changing links
-/

def create (f : Forest) (shape : Shape) : Forest :=
  ⟨f.vertices.push (Vertex.ofShape shape)⟩

def change (f : Forest) (id : Nat) (edit : Vertex → Vertex) : Forest :=
  ⟨f.vertices.modify id edit⟩

def changeAt (f : Forest) (id : Option Nat) (edit : Vertex → Vertex) : Forest :=
  match id with
  | none => f
  | some id => f.change id edit

def changeEnds (f : Forest) (parent : Nat) (edit : Ends → Option Ends) : Forest :=
  f.change parent fun v => { v with children := v.children.bind edit }

def extendText (f : Forest) (id : Nat) (c : Char) : Forest :=
  f.change id fun v =>
    match v.shape with
    | .text s => { v with shape := .text (s.push c) }
    | _ => v

def detach (f : Forest) (id : Nat) : Forest :=
  match f.vertices[id]? with
  | some ⟨_, some parent, previous, next, _⟩ =>
    (((f.change id fun v => { v with parent := none, previous := none, next := none }).changeAt
      previous fun v => { v with next := next }).changeAt
        next fun v => { v with previous := previous }).changeEnds
          parent fun ends => ends.without id previous next
  | _ => f

/-!
# Adding nodes
-/

def append (f : Forest) (parent id : Nat) : Forest :=
  let f := f.detach id
  let ends := f.children? parent
  ((f.change id fun v => { v with parent := some parent, previous := ends.map Ends.last }).changeAt
    (ends.map Ends.last) fun v => { v with next := some id }).change
      parent fun v => { v with children := some ⟨(ends.map Ends.first).getD id, id⟩ }

def insertBefore (f : Forest) (sibling id : Nat) : Forest :=
  let f := f.detach id
  match f.parent? sibling with
  | none => f
  | some parent =>
    let previous := f.previous? sibling
    (((f.change id fun v =>
        { v with parent := some parent, previous := previous, next := some sibling }).changeAt
      previous fun v => { v with next := some id }).change
        sibling fun v => { v with previous := some id }).changeEnds
          parent fun ends => some (if ends.first = sibling then { ends with first := id } else ends)

def appendText (f : Forest) (parent : Nat) (c : Char) : Forest :=
  match ((f.children? parent).map Ends.last).filter f.isText with
  | some text => f.extendText text c
  | none =>
    let id := f.vertices.size
    (f.create (.text c.toString)).append parent id

def insertTextBefore (f : Forest) (sibling : Nat) (c : Char) : Forest :=
  match (f.previous? sibling).filter f.isText with
  | some text => f.extendText text c
  | none =>
    let id := f.vertices.size
    (f.create (.text c.toString)).insertBefore sibling id

def moveChildren (f : Forest) (source target : Nat) : Forest :=
  match f.children? source with
  | none => f
  | some moved =>
    let own := f.children? target
    let adopt (v : Vertex) : Vertex := { v with parent := some target }
    let f := ((f.change source fun v => { v with children := none }).change
      moved.first adopt).change moved.last adopt
    let f := f.change target fun v =>
      { v with children := some ⟨(own.map Ends.first).getD moved.first, moved.last⟩ }
    match own with
    | none => f
    | some own =>
      (f.change own.last fun v => { v with next := some moved.first }).change
        moved.first fun v => { v with previous := some own.last }

end Forest
end Html
end Parley
