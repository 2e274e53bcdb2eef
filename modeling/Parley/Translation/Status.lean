import Parley.Translation.Entry

/-!
# Answers to a translation request

A request is answered with a stored translation or told to come back later. In
a message the kind of answer is the field `status` beside the answer's own
fields, wherever it stands; the other fields are kept until it is known.
-/

namespace Parley

inductive Status where
  | ready (content : String) (markup : Markup)
  | pending
  deriving DecidableEq, Repr

open Json

namespace Status

def isReady : Status → Bool
  | .ready .. => true
  | .pending => false

def toJson : Status → Value
  | .ready content markup =>
    .object [("status", .string "ready"), ("content", .string content),
      ("text_kind", markup.toJson)]
  | .pending => .object [("status", .string "pending")]

def write (s : Status) : String :=
  s.toJson.write

/-!
# Reading
-/

inductive Tag where
  | ready
  | pending
  deriving DecidableEq

def Tag.reader : Reader Tag := fun t => do
  let s ← Reader.string t
  if s = "ready" then .ok .ready
  else if s = "pending" then .ok .pending
  else .error .mismatch

/-- What is known of an answer before its end: its kind, and its other members in reverse. -/
structure Draft where
  tag : Option Tag := none
  kept : List (Option String × Tree) := []

/-- Containers that may stand inside each other below the answer itself. -/
def room : Nat :=
  Tree.maxDepth - 1

def Draft.member (d : Draft) (name : String) (t : Tree) : Except Fault Draft := do
  if name = "status" then
    pure { d with tag := ← Reader.once Tag.reader d.tag t }
  else
    let _ ← Reader.generic room t
    pure { d with kept := (some name, t) :: d.kept }

structure Fields where
  content : Option String := none
  markup : Option Markup := none

def Fields.member (d : Fields) (name : String) (t : Tree) : Except Fault Fields := do
  if name = "content" then
    pure { d with content := ← Reader.once Reader.string d.content t }
  else if name = "text_kind" then
    pure { d with markup := ← Reader.once (Markup.reader Reader.nullOrEmpty) d.markup t }
  else pure d

def Fields.finish (d : Fields) : Except Fault Status := do
  pure (.ready (← Reader.required d.content) (← Reader.required d.markup))

def Draft.finish (d : Draft) : Except Fault Status := do
  match ← Reader.required d.tag with
  | .pending => pure .pending
  | .ready => (← Reader.members Fields.member .closed {} d.kept.reverse).finish

def readyRow : StateT Reader.Row (Except Fault) Status := do
  let content ← Reader.required (← Reader.Row.next Reader.string)
  let markup ← Reader.required (← Reader.Row.next (Markup.reader Reader.nullOrEmpty))
  pure (.ready content markup)

def reader : Reader Status
  | .object members ending => do
    (← Reader.members Draft.member ending {} members).finish
  | .array items ending => do
    let (tag, rest) ← (Reader.Row.next Tag.reader).run ⟨items, ending⟩
    match ← Reader.required tag with
    | tag =>
      let _ ← Reader.list (Reader.generic room) (.array rest.items rest.ending)
      match tag with
      | .pending => Reader.row (pure .pending) rest.items rest.ending .mismatch
      | .ready => Reader.row readyRow rest.items rest.ending .mismatch
  | t => .error (Reader.wrong t)

end Status
end Parley
