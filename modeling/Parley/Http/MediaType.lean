import Parley.Text.Blank

/-!
# Media types

A type and a subtype with a slash between them, then parameters, each after a
semicolon. Spaces are allowed before a parameter and after a quoted value, and
nowhere else.
-/

namespace Parley
namespace Http

structure MediaType where
  kind : String
  /-- What follows the slash, up to the last plus sign that is not the first character. -/
  subtype : String
  /-- What follows that plus sign. -/
  suffix : Option String
  deriving DecidableEq, Repr

namespace MediaType

def isTokenChar (c : Char) : Bool :=
  c.isAlphanum || c = Char.ofNat 96 ||
    ['!', '#', '$', '%', '&', '\'', '*', '+', '-', '.', '^', '_', '|', '~'].contains c

def isQuotedChar (c : Char) : Bool :=
  ' ' ≤ c && c ≠ '"' && c ≠ Char.ofNat 127

def afterQuoted? (cs : List Char) : Option (List Char) :=
  match cs.dropWhile (· = ' ') with
  | [] => some []
  | ';' :: rest => some rest
  | _ => none

/-- What follows the value of a parameter. A quoted value holds at least one character, the first
of which may be a quote; a value before a semicolon is not empty. -/
def afterValue? : List Char → Option (List Char)
  | '"' :: c :: rest =>
    if isQuotedChar c || c = '"' then
      match rest.dropWhile isQuotedChar with
      | '"' :: more => afterQuoted? more
      | _ => none
    else none
  | cs =>
    match cs.dropWhile isTokenChar with
    | [] => some []
    | ';' :: rest => if cs.head? = some ';' then none else some rest
    | _ => none

def afterParameter? (cs : List Char) : Option (List Char) :=
  match cs.span isTokenChar with
  | (_ :: _, '=' :: rest) => afterValue? rest
  | _ => none

def areParameters : Nat → List Char → Bool
  | 0, cs => cs.isEmpty
  | fuel + 1, cs =>
    match cs.dropWhile (· = ' ') with
    | [] => true
    | ds =>
      match afterParameter? ds with
      | some rest => areParameters fuel rest
      | none => false

def splitSuffix (cs : List Char) : List Char × Option (List Char) :=
  let tail := (cs.reverse.takeWhile (· ≠ '+')).reverse
  let lead := cs.take (cs.length - tail.length - 1)
  if lead.isEmpty then (cs, none) else (lead, some tail)

def ofString? (s : String) : Option MediaType :=
  match (Text.lowerAscii s).toList.span isTokenChar with
  | (c :: kind, '/' :: rest) =>
    let (subtype, rest) := rest.span isTokenChar
    let (subtype, suffix) := splitSuffix subtype
    let ok :=
      match rest with
      | [] => true
      | ';' :: parameters => !subtype.isEmpty && areParameters parameters.length parameters
      | _ => false
    if ok then
      some ⟨String.ofList (c :: kind), String.ofList subtype, suffix.map String.ofList⟩
    else none
  | _ => none

def isJson (m : MediaType) : Bool :=
  m.kind = "application" && (m.subtype = "json" || m.suffix = some "json")

end MediaType
end Http
end Parley
