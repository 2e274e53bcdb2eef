import Parley.Html.Mode.Foreign
import Parley.Html.Written

/-!
# Pages

A page is read token by token. Each token is offered to one mode after another
until it is used up; that takes fewer rounds than there are open elements, give
or take a few.
-/

namespace Parley
namespace Html

def settle (token : Token) : Nat → Build (Option Content)
  | 0 => return none
  | rounds + 1 => do
    let b ← get
    match ← if b.keepsForeign token then readForeign token else readIn b.mode token with
    | .done => return none
    | .read content => return some content
    | .again mode => do
      setMode mode
      settle token rounds

/-- One token; a newline just after some start tags is passed over. -/
def acceptToken (token : Token) : Build (Option Content) := do
  let b ← get
  set { b with skipsNewline := false }
  match token with
  | .fault => return none
  | .doctype _ =>
    if b.mode = .start then settle token 1 else return none
  | .char c =>
    if b.skipsNewline && c == '\n' then return none
    else settle token (2 * b.opened.length + 32)
  | _ => settle token (2 * b.opened.length + 32)

def acceptTokens : List Token → Build (Option Content)
  | [] => return none
  | [token] => acceptToken token
  | token :: rest => do
    discard (acceptToken token)
    acceptTokens rest

/-- What is read after a script begins as a text of its own does: with no mark of byte order. -/
def afterScript (content next : Content) (cs : List Char) : List Char :=
  match content, next, cs with
  | .script _, .markup, c :: rest => if c = byteOrderMark then rest else c :: rest
  | _, _, cs => cs

/-- Reads a text to its end; each step takes at least one of `n` characters. -/
def acceptText (content : Content) (n : Nat) (cs : List Char) : Build Unit :=
  match n, cs with
  | 0, _ => pure ()
  | _, [] => pure ()
  | n + 1, c :: rest => do
    let (tokens, next, rest) := readTokens (← get).current.label.isForeign content c rest
    let rest := afterScript content next rest
    match ← acceptTokens tokens with
    | some content => acceptText content n rest
    | none => acceptText next n rest

def acceptPage (text : String) : Build Unit := do
  let cs := pageChars text
  acceptText .markup cs.length cs
  if (← get).mode = .inTableText then placeText

/-- What stands directly in the body of a page, with the text of an element as it is written. -/
inductive Piece where
  | element (written : String)
  | text (s : String)
  | comment

def pieceOf (f : Forest) (id : Nat) : Piece :=
  match f.shape? id with
  | some (.element _ _) => .element (f.write id)
  | some (.text s) => .text s
  | _ => .comment

def isBody (f : Forest) (id : Nat) : Bool :=
  match f.shape? id with
  | some (.element label _) => label.isPage "body"
  | _ => false

def bodyOf (text : String) : List Piece :=
  let f := (acceptPage text |>.run Builder.empty).2.forest
  match (f.childrenOf 0).find? (isBody f) with
  | some body => (f.childrenOf body).map (pieceOf f)
  | none => []

end Html
end Parley
