import Parley.Html.Reference

/-!
# Tags

Names, attributes and the slash that closes a tag in itself. A tag that the
text breaks off in is no tag. Of attributes with one name the first counts.
-/

namespace Parley
namespace Html

structure Attribute where
  name : String
  value : String
  deriving DecidableEq, Repr

structure Tag where
  name : String
  attributes : List Attribute
  selfClosing : Bool
  deriving Repr

namespace Tag

def plain (name : String) : Tag := ⟨name, [], false⟩

def attribute? (t : Tag) (name : String) : Option String :=
  (t.attributes.find? fun a => a.name == name).map Attribute.value

def alike (s t : Tag) : Bool :=
  s.name == t.name && s.attributes.length == t.attributes.length &&
    s.attributes.all fun a => t.attributes.contains a

end Tag

/-!
# Characters of tags
-/

def isSpace (c : Char) : Bool :=
  c == '\t' || c == '\n' || c == Char.ofNat 12 || c == ' '

def endsName (c : Char) : Bool :=
  isSpace c || c == '/' || c == '>'

def visible (c : Char) : Char :=
  if c = Char.ofNat 0 then replacement else c

def nameOf (cs : List Char) : String :=
  String.ofList (cs.map fun c => visible c.toLower)

def dropSpaces (cs : List Char) : List Char :=
  cs.dropWhile isSpace

/-!
# Reading
-/

def readValue (cs : List Char) : Option (String × List Char) :=
  match dropSpaces cs with
  | [] => none
  | c :: rest =>
    if c = '"' || c = '\'' then
      match rest.dropWhile (· != c) with
      | [] => none
      | _ :: after => some (decodeValue (rest.takeWhile (· != c)), after)
    else
      let inside d := !(isSpace d || d == '>')
      some (decodeValue ((c :: rest).takeWhile inside), (c :: rest).dropWhile inside)

def addAttribute (seen : List Attribute) (name value : String) : List Attribute :=
  if seen.any fun a => a.name == name then seen else ⟨name, value⟩ :: seen

/-- The attributes of a tag, latest first, whether it closes itself, and the text after it. Each
step takes at least one of `n` characters. -/
def readAttributes (n : Nat) (seen : List Attribute) (cs : List Char) :
    Option (List Attribute × Bool × List Char) :=
  match n, cs with
  | 0, _ => none
  | _, [] => none
  | n + 1, c :: rest =>
    if c = '>' then some (seen, false, rest)
    else if c = '/' then
      match rest with
      | '>' :: after => some (seen, true, after)
      | _ => readAttributes n seen rest
    else if isSpace c then readAttributes n seen rest
    else
      let inside d := !(endsName d || d == '=')
      let name := nameOf (c :: rest.takeWhile inside)
      match dropSpaces (rest.dropWhile inside) with
      | '=' :: after =>
        match readValue after with
        | none => none
        | some (value, after) => readAttributes n (addAttribute seen name value) after
      | after => readAttributes n (addAttribute seen name "") after

def readTag (cs : List Char) : Option (Tag × List Char) :=
  let after := cs.dropWhile fun c => !endsName c
  match readAttributes after.length [] after with
  | none => none
  | some (attributes, selfClosing, rest) =>
    some (⟨nameOf (cs.takeWhile fun c => !endsName c), attributes.reverse, selfClosing⟩, rest)

end Html
end Parley
