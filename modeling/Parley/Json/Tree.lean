import Parley.Json.Literal

/-!
# JSON trees

What can be read of a JSON text, from left to right. A tree is total: where the
text stops making sense the value is `broken` or its container is `cut`, and
nothing after that place is in the tree. Readers that walk a tree from left to
right therefore meet its first fault where the text has it.

Trees are built from tokens by one pass with a stack of open containers.
-/

namespace Parley
namespace Json

/-- How a container ends: properly, by a fault, or by a value where a name belongs. -/
inductive Ending where
  | closed
  | cut
  | nameless
  deriving DecidableEq, Repr

inductive Tree where
  | null
  | bool (b : Bool)
  | number (l : Literal)
  | string (s : Option String)
  | array (items : List Tree) (ending : Ending)
  | object (members : List (Option String × Tree)) (ending : Ending)
  | broken
  deriving Repr

namespace Tree

abbrev Member := Option String × Tree

/-- A container that waits for a value, with what it holds so far in reverse. -/
inductive Frame where
  | array (before : List Tree)
  | object (before : List Member) (name : Option String)

/-- What may come next in the innermost container. -/
inductive Place where
  | value
  | firstItem
  | afterItem (before : List Tree)
  | firstMember
  | nextMember (before : List Member)
  | colon (before : List Member) (name : Option String)
  | afterMember (before : List Member)

def resume (stack : List Frame) (t : Tree) : Option (List Frame × Place) :=
  match stack with
  | [] => none
  | .array before :: outer => some (outer, .afterItem (t :: before))
  | .object before name :: outer => some (outer, .afterMember ((name, t) :: before))

def collapse (t : Tree) : List Frame → Tree
  | [] => t
  | .array before :: outer => collapse (.array (t :: before).reverse .cut) outer
  | .object before name :: outer =>
    collapse (.object ((name, t) :: before).reverse .cut) outer

/-- The innermost container, or value, when the text fails at this place. -/
def Place.cut (ending : Ending) : Place → Tree
  | .value => .broken
  | .firstItem => .array [] .cut
  | .afterItem before => .array before.reverse .cut
  | .firstMember => .object [] ending
  | .nextMember before => .object before.reverse ending
  | .colon before name => .object ((name, .broken) :: before).reverse .cut
  | .afterMember before => .object before.reverse .cut

def leaf? : Token → Option Tree
  | .null => some .null
  | .bool b => some (.bool b)
  | .number l => some (.number l)
  | .string s => some (.string s)
  | _ => none

def opensValue : Token → Bool
  | .beginArray | .beginObject => true
  | t => (leaf? t).isSome

inductive Move where
  | go (stack : List Frame) (place : Place)
  | finish (stack : List Frame) (t : Tree)
  | fail (stack : List Frame) (t : Tree)

def moveValue (stack : List Frame) (otherwise : Tree) (t : Token) : Move :=
  match t with
  | .beginArray => .go stack .firstItem
  | .beginObject => .go stack .firstMember
  | t =>
    match leaf? t with
    | some v => .finish stack v
    | none => .fail stack otherwise

def moveName (stack : List Frame) (before : List Member) (place : Place) (t : Token) : Move :=
  match t with
  | .string s => .go stack (.colon before s)
  | t => .fail stack (place.cut (if opensValue t then .nameless else .cut))

def move (stack : List Frame) (place : Place) (t : Token) : Move :=
  match place with
  | .value => moveValue stack .broken t
  | .firstItem =>
    if t = .endArray then .finish stack (.array [] .closed)
    else moveValue (.array [] :: stack) .broken t
  | .afterItem before =>
    if t = .endArray then .finish stack (.array before.reverse .closed)
    else if t = .comma then .go (.array before :: stack) .value
    else .fail stack (place.cut .cut)
  | .firstMember =>
    if t = .endObject then .finish stack (.object [] .closed)
    else moveName stack [] place t
  | .nextMember before => moveName stack before place t
  | .colon before name =>
    if t = .colon then .go (.object before name :: stack) .value
    else .fail stack (place.cut .cut)
  | .afterMember before =>
    if t = .endObject then .finish stack (.object before.reverse .closed)
    else if t = .comma then .go stack (.nextMember before)
    else .fail stack (place.cut .cut)

def build (stack : List Frame) (place : Place) : List Token → Tree × List Token
  | [] => (collapse (place.cut .cut) stack, [.fault])
  | t :: rest =>
    match move stack place t with
    | .go stack place => build stack place rest
    | .finish stack v =>
      match resume stack v with
      | none => (v, rest)
      | some (stack, place) => build stack place rest
    | .fail stack v => (collapse v stack, [.fault])

def read (s : String) : Tree × List Token :=
  build [] .value (Token.lex s.toList)

/-!
# Checking and generic reading
-/

def isWhole : Tree → Bool
  | .null | .bool _ | .number _ | .string _ => true
  | .array items ending => ending == .closed && itemsWhole items
  | .object members ending => ending == .closed && membersWhole members
  | .broken => false
where
  itemsWhole : List Tree → Bool
    | [] => true
    | t :: ts => isWhole t && itemsWhole ts
  membersWhole : List (Option String × Tree) → Bool
    | [] => true
    | (_, t) :: ts => isWhole t && membersWhole ts

/-- The generic value, when the tree is whole, its strings and numbers have values and
no more than `room` containers stand inside each other. -/
def value? (room : Nat) : Tree → Option Value
  | .null => some .null
  | .bool b => some (.bool b)
  | .number l => l.number?.map .number
  | .string s => s.map .string
  | .array items ending =>
    if room = 0 || ending != .closed then none
    else (values? (room - 1) items).map .array
  | .object members ending =>
    if room = 0 || ending != .closed then none
    else (memberValues? (room - 1) members).map fun ms => .object (sortMembers ms)
  | .broken => none
where
  values? (room : Nat) : List Tree → Option (List Value)
    | [] => some []
    | t :: ts =>
      match value? room t, values? room ts with
      | some v, some vs => some (v :: vs)
      | _, _ => none
  memberValues? (room : Nat) : List (Option String × Tree) → Option (List (String × Value))
    | [] => some []
    | (name, t) :: ts =>
      match name, value? room t, memberValues? room ts with
      | some n, some v, some vs => some ((n, v) :: vs)
      | _, _, _ => none

def maxDepth : Nat :=
  127

end Tree

def parse? (s : String) : Option Value :=
  match Tree.read s with
  | (t, []) => t.value? Tree.maxDepth
  | _ => none

end Json
end Parley
