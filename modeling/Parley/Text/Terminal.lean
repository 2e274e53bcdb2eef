/-!
# Text for a terminal

A terminal takes some characters as commands. An escape character begins a
sequence that runs to its last letter, or a string that runs to its end mark;
other controls are commands of their own. What is left of a text without them
is what can be read: its other characters, and four kinds of space.
-/

namespace Parley
namespace Text
namespace Terminal

def escape : Char :=
  Char.ofNat 0x1B

inductive Stage where
  /-- In none. -/
  | reading
  | escaped
  /-- After an escape and some characters that do not end its sequence. -/
  | selecting
  /-- In a sequence with parameters. -/
  | sequence
  /-- In a string that a bell ends. -/
  | title
  /-- In a string that the byte 9C ends. -/
  | device
  deriving DecidableEq, Repr

def isSpace (c : Char) : Bool :=
  c == '\t' || c == '\n' || c == '\r' || c == Char.ofNat 12

def isText (c : Char) : Bool :=
  isSpace c || (32 ≤ c.toNat && c.toNat != 127)

/-- Whether a character beyond ASCII has the byte 9C in its encoding. -/
def holdsEnd (c : Char) : Bool :=
  c.toString.toUTF8.toList.contains 0x9C

def afterEscape (c : Char) : Stage :=
  let n := c.toNat
  if n < 0x20 || 0x7F ≤ n then .escaped
  else if n < 0x30 then .selecting
  else if c = '[' then .sequence
  else if c = ']' then .title
  else if c = 'P' || c = 'X' || c = '^' || c = '_' then .device
  else .reading

def Stage.next (stage : Stage) (c : Char) : Stage :=
  let n := c.toNat
  if c = escape then .escaped
  else if n = 0x18 || n = 0x1A then .reading
  else
    match stage with
    | .reading => .reading
    | .escaped => afterEscape c
    | .selecting => if 0x30 ≤ n && n < 0x7F then .reading else .selecting
    | .sequence => if 0x40 ≤ n && n < 0x7F then .reading else .sequence
    | .title => if n = 7 then .reading else .title
    | .device => if 0x80 ≤ n && holdsEnd c then .reading else .device

/-- Whether a space is obeyed, and counts as text, in the middle of a command. -/
def Stage.allowsSpace : Stage → Bool
  | .title => false
  | .device => false
  | _ => true

/-- The characters of a text that are no commands. While `shows`, a command is only taken up again
by a character that is no text. -/
def textFrom (stage : Stage) (shows : Bool) : List Char → List Char
  | [] => []
  | c :: rest =>
    if (shows || stage = .reading) && isText c then
      c :: textFrom (if c.toNat < 0x80 then stage else .reading) true rest
    else if isSpace c && stage.allowsSpace then c :: textFrom stage true rest
    else textFrom (stage.next c) false rest

def plain (s : String) : String :=
  String.ofList (textFrom .reading true s.toList)

end Terminal
end Text
end Parley
