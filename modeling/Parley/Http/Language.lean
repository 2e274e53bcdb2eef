import Parley.Number.Written
import Parley.Text.Blank

/-!
# Preferred languages

A list of languages with weights. The weight of a language is the first number
that its parameters name as such, and one if they name none. The language of
the greatest weight is preferred, and of several the first; one with a weight
of zero or less is never preferred.
-/

namespace Parley
namespace Http
namespace Language

structure Choice where
  tag : List Char
  weight : Floating
  deriving DecidableEq, Repr

def weightOf? (parameter : List Char) : Option Floating :=
  match Text.trim parameter with
  | 'q' :: '=' :: value => Floating.ofText? .binary32 (Text.trim value)
  | _ => none

def choice? (entry : List Char) : Option Choice :=
  match Text.splitOn ';' entry with
  | [] => none
  | tag :: parameters =>
    let tag := Text.trim tag
    if tag.isEmpty then none
    else some ⟨tag, (parameters.findSome? weightOf?).getD (Floating.one .binary32)⟩

def choices (value : List Char) : List Choice :=
  (Text.splitOn ',' value).filterMap choice?

def better (best : Option Choice) (next : Choice) : Option Choice :=
  if next.weight.le (Floating.zero .binary32) then best
  else
    match best with
    | none => some next
    | some b => if b.weight.lt next.weight then some next else best

def preferred? (value : String) : Option String :=
  ((choices value.toList).foldl better none).map fun c => String.ofList c.tag

/-- Texts come in English, so nobody who reads it, or anything, needs another text. -/
def isSource (locale : String) : Bool :=
  locale = "*" || Text.startsWith ['e', 'n'] (Text.lowerAscii locale).toList

end Language
end Http
end Parley
