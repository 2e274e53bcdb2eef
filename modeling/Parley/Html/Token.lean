import Parley.Html.Doctype

/-!
# Tokens

A page is read as tags, comments and characters. What may stand at a point
depends on the element that was opened last: after some start tags there is
nothing but text up to the end tag of the same name.
-/

namespace Parley
namespace Html

inductive Token where
  | doctype (old : Bool)
  | startTag (tag : Tag)
  | endTag (name : String)
  | comment (text : String)
  | char (c : Char)
  /-- A character of code zero. -/
  | zero
  /-- Something that was wrong and left no trace but this. -/
  | fault
  deriving Repr

/-- What covers the text of a script, a comment or in it a script of its own, and the hyphens
just read, at most two. -/
inductive Cover where
  | bare
  | comment (hyphens : Nat)
  | script (hyphens : Nat)
  deriving DecidableEq, Repr

inductive Content where
  | markup
  /-- Text with references, up to the end tag. -/
  | escapable (name : String)
  /-- Text as it stands, up to the end tag. -/
  | raw (name : String)
  | script (cover : Cover)
  /-- Text to the end of the page. -/
  | plain
  deriving DecidableEq, Repr

/-!
# Comments
-/

def afterCommentEnd? : List Char → Option (List Char)
  | [] => some []
  | ['-'] => some []
  | ['-', '-'] => some []
  | ['-', '-', '!'] => some []
  | '-' :: '-' :: '>' :: rest => some rest
  | '-' :: '-' :: '!' :: '>' :: rest => some rest
  | _ => none

def readCommentText (seen : List Char) (cs : List Char) : List Char × List Char :=
  match afterCommentEnd? cs with
  | some rest => (seen.reverse, rest)
  | none =>
    match cs with
    | [] => (seen.reverse, [])
    | c :: rest => readCommentText (visible c :: seen) rest

def readComment : List Char → List Char × List Char
  | '>' :: rest => ([], rest)
  | '-' :: '>' :: rest => ([], rest)
  | cs => readCommentText [] cs

def readStrayComment (cs : List Char) : Token × List Char :=
  let text := cs.takeWhile (· != '>')
  (.comment (String.ofList (text.map visible)), (cs.dropWhile (· != '>')).drop 1)

/-!
# Markup
-/

def characterToken (c : Char) : Token :=
  if c = Char.ofNat 0 then .zero else .char c

def readSection (seen : List Token) : List Char → List Token × List Char
  | [] => (seen.reverse, [])
  | c :: rest =>
    match Text.after? [']', ']', '>'] (c :: rest) with
    | some after => (seen.reverse, after)
    | none => readSection (characterToken c :: seen) rest

def readDeclaration (foreign : Bool) (cs : List Char) : List Token × List Char :=
  match Text.after? ['-', '-'] cs with
  | some rest =>
    let (text, rest) := readComment rest
    ([.comment (String.ofList text)], rest)
  | none =>
    match afterWord? "doctype" cs with
    | some rest =>
      ([.doctype (doctypeIsOld (rest.takeWhile (· != '>')))],
        (rest.dropWhile (· != '>')).drop 1)
    | none =>
      match if foreign then Text.after? "[CDATA[".toList cs else none with
      | some rest => readSection [] rest
      | none =>
        let (token, rest) := readStrayComment cs
        ([token], rest)

def readEndTag (cs : List Char) : List Token × List Char :=
  match readTag cs with
  | some (tag, rest) => ([.endTag tag.name], rest)
  | none => ([], [])

def readMarkup (foreign : Bool) (cs : List Char) : List Token × List Char :=
  match cs with
  | [] => ([.char '<'], [])
  | '!' :: rest => readDeclaration foreign rest
  | '/' :: [] => ([.char '<', .char '/'], [])
  | '/' :: '>' :: rest => ([.fault], rest)
  | '/' :: c :: rest =>
    if c.isAlpha then readEndTag (c :: rest)
    else
      let (token, rest) := readStrayComment (c :: rest)
      ([token], rest)
  | '?' :: rest =>
    let (token, rest) := readStrayComment ('?' :: rest)
    ([token], rest)
  | c :: rest =>
    if c.isAlpha then
      match readTag (c :: rest) with
      | some (tag, rest) => ([.startTag tag], rest)
      | none => ([], [])
    else ([.char '<'], c :: rest)

def readReference (cs : List Char) : List Token × List Char :=
  match reference? false cs with
  | none => ([.char '&'], cs)
  | some r => ((if r.closed then [] else [.fault]) ++ r.chars.map .char, r.rest)

/-!
# Text up to an end tag
-/

def startsTag (name : String) (cs : List Char) : Bool :=
  match afterWord? name cs with
  | some (c :: _) => endsName c
  | _ => false

def endTagHere? (name : String) : List Char → Option (List Char)
  | '<' :: '/' :: cs => if startsTag name cs then some cs else none
  | _ => none

def Cover.next (h : Cover) (cs : List Char) : Cover :=
  match h, cs with
  | _, [] => h
  | .bare, '<' :: '!' :: '-' :: '-' :: _ => .comment 0
  | .bare, _ => .bare
  | .comment n, '-' :: _ => .comment (min 2 (n + 1))
  | .comment 2, '>' :: _ => .bare
  | .comment _, '<' :: rest => if startsTag "script" rest then .script 0 else .comment 0
  | .comment _, _ => .comment 0
  | .script n, '-' :: _ => .script (min 2 (n + 1))
  | .script 2, '>' :: _ => .bare
  | .script _, '<' :: '/' :: rest => if startsTag "script" rest then .comment 0 else .script 0
  | .script _, _ => .script 0

def Cover.ends : Cover → Bool
  | .script _ => false
  | _ => true

/-!
# Reading
-/

/-- The first tokens of a text that is not empty, what its rest is read as, and its rest. -/
def readTokens (foreign : Bool) (content : Content) (c : Char) (rest : List Char) :
    List Token × Content × List Char :=
  match content with
  | .markup =>
    if c = '<' then
      let (tokens, rest) := readMarkup foreign rest
      (tokens, .markup, rest)
    else if c = '&' then
      let (tokens, rest) := readReference rest
      (tokens, .markup, rest)
    else ([characterToken c], .markup, rest)
  | .escapable name =>
    match endTagHere? name (c :: rest) with
    | some after =>
      let (tokens, rest) := readEndTag after
      (tokens, .markup, rest)
    | none =>
      if c = '&' then
        let (tokens, rest) := readReference rest
        (tokens, content, rest)
      else ([.char (visible c)], content, rest)
  | .raw name =>
    match endTagHere? name (c :: rest) with
    | some after =>
      let (tokens, rest) := readEndTag after
      (tokens, .markup, rest)
    | none => ([.char (visible c)], content, rest)
  | .script cover =>
    match if cover.ends then endTagHere? "script" (c :: rest) else none with
    | some after =>
      let (tokens, rest) := readEndTag after
      (tokens, .markup, rest)
    | none => ([.char (visible c)], .script (cover.next (c :: rest)), rest)
  | .plain => ([.char (visible c)], .plain, rest)

def unifyLines : List Char → List Char
  | [] => []
  | '\r' :: '\n' :: rest => '\n' :: unifyLines rest
  | '\r' :: rest => '\n' :: unifyLines rest
  | c :: rest => c :: unifyLines rest

def byteOrderMark : Char := Char.ofNat 0xFEFF

def pageChars (text : String) : List Char :=
  match text.toList with
  | [] => []
  | c :: rest => unifyLines (if c = byteOrderMark then rest else c :: rest)

end Html
end Parley
