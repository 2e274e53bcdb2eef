import Parley.Text.Hex

/-!
# Quoted text

Four forms: in double quotes with escapes or in single quotes without, each on
one line or, with the quote threefold, on many. Readers get what follows the
opening quote and give the text and what follows the closing one.
-/

namespace Parley
namespace Toml

abbrev Read (α : Type) := Option (α × List Char)

def isPrintable (c : Char) : Bool :=
  c == '\t' || (32 ≤ c.toNat && c.toNat != 127)

def isGap (c : Char) : Bool :=
  c == ' ' || c == '\t'

def skipGaps (cs : List Char) : List Char :=
  cs.dropWhile isGap

def afterNewline? : List Char → Option (List Char)
  | '\n' :: rest => some rest
  | '\r' :: '\n' :: rest => some rest
  | _ => none

/-!
# Escapes
-/

def codePoint? (digits : List Char) : Option Char :=
  if digits.all fun c => (Text.Hex.value? c).isSome then
    let n := digits.foldl (fun n c => 16 * n + (Text.Hex.value? c).getD 0) 0
    if h : n.isValidChar then some (Char.ofNatAux n h) else none
  else none

def readCodePoint (count : Nat) (cs : List Char) : Read Char :=
  if cs.length < count then none
  else (codePoint? (cs.take count)).map fun c => (c, cs.drop count)

def readEscape : List Char → Read Char
  | 'b' :: rest => some (Char.ofNat 8, rest)
  | 't' :: rest => some ('\t', rest)
  | 'n' :: rest => some ('\n', rest)
  | 'f' :: rest => some (Char.ofNat 12, rest)
  | 'r' :: rest => some ('\r', rest)
  | '"' :: rest => some ('"', rest)
  | '\\' :: rest => some ('\\', rest)
  | 'u' :: rest => readCodePoint 4 rest
  | 'U' :: rest => readCodePoint 8 rest
  | _ => none

def skipLines (cs : List Char) : List Char :=
  match cs with
  | [] => []
  | c :: rest =>
    if isGap c || c == '\n' then skipLines rest
    else
      match afterNewline? (c :: rest) with
      | some _ => skipLines rest
      | none => c :: rest

/-!
# One line
-/

def readEscaped (n : Nat) (seen : List Char) (cs : List Char) : Read String :=
  match n, cs with
  | 0, _ => none
  | _, [] => none
  | _ + 1, '"' :: rest => some (String.ofList seen.reverse, rest)
  | n + 1, '\\' :: rest =>
    match readEscape rest with
    | some (c, rest) => readEscaped n (c :: seen) rest
    | none => none
  | n + 1, c :: rest => if isPrintable c then readEscaped n (c :: seen) rest else none

def readLiteral (cs : List Char) : Read String :=
  let text := cs.takeWhile fun c => isPrintable c && c != '\''
  match cs.drop text.length with
  | '\'' :: rest => some (String.ofList text, rest)
  | _ => none

/-!
# Many lines
-/

/-- Quotes at this point: those that belong to the text, and whether the text ends with them. Three
quotes end it, and up to two more before them are text. -/
def quotesHere (quote : Char) (cs : List Char) : Nat × Bool :=
  let run := (cs.takeWhile (· == quote)).length
  if run < 3 then (run, false) else (min run 5 - 3, true)

def readLines (quote : Char) (escapes : Bool) (n : Nat) (seen : List Char) (cs : List Char) :
    Read String :=
  match n, cs with
  | 0, _ => none
  | _, [] => none
  | n + 1, c :: rest =>
    if c == quote then
      match quotesHere quote cs with
      | (inside, true) =>
        some (String.ofList (seen.reverse ++ List.replicate inside quote), cs.drop (inside + 3))
      | (_, false) => readLines quote escapes n (c :: seen) rest
    else
      match afterNewline? cs with
      | some rest => readLines quote escapes n ('\n' :: seen) rest
      | none =>
        if escapes && c == '\\' then
          match afterNewline? (skipGaps rest) with
          | some rest => readLines quote escapes n seen (skipLines rest)
          | none =>
            match readEscape rest with
            | some (c, rest) => readLines quote escapes n (c :: seen) rest
            | none => none
        else if isPrintable c then readLines quote escapes n (c :: seen) rest
        else none

/-- A line end just after the opening quotes is no part of the text. -/
def readParagraph (quote : Char) (escapes : Bool) (cs : List Char) : Read String :=
  readLines quote escapes (cs.length + 1) [] ((afterNewline? cs).getD cs)

/-!
# All forms
-/

def readQuotedKey : List Char → Read String
  | '"' :: rest => readEscaped (rest.length + 1) [] rest
  | '\'' :: rest => readLiteral rest
  | _ => none

def readQuoted : List Char → Read String
  | '"' :: '"' :: '"' :: rest => readParagraph '"' true rest
  | '\'' :: '\'' :: '\'' :: rest => readParagraph '\'' false rest
  | cs => readQuotedKey cs

end Toml
end Parley
