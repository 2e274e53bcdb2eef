import Parley.Toml.Scalar

/-!
# Documents

A document is a run of lines: headers, keys with their items, comments. Lists
may run over lines, tables in braces may not. Nothing is nested deeper than a
fixed number of levels, and no dotted key has that many parts.
-/

namespace Parley
namespace Toml

/-!
# Gaps
-/

def skipComment : List Char → List Char
  | '#' :: rest => rest.dropWhile isPrintable
  | cs => cs

def afterLine? (cs : List Char) : Option (List Char) :=
  match skipComment (skipGaps cs) with
  | [] => some []
  | cs => afterNewline? cs

def skipAny (n : Nat) (cs : List Char) : Option (List Char) :=
  match n, skipGaps cs with
  | 0, cs => some cs
  | _, [] => some []
  | n + 1, '#' :: rest =>
    match afterNewline? (rest.dropWhile isPrintable) with
    | some rest => skipAny n rest
    | none => none
  | n + 1, cs =>
    match afterNewline? cs with
    | some rest => skipAny n rest
    | none => some cs

/-!
# Keys
-/

def isBare (c : Char) : Bool :=
  c.isAlphanum || c == '_' || c == '-'

def readSimpleKey (cs : List Char) : Read String :=
  match readQuotedKey cs with
  | some r => some r
  | none =>
    let bare := cs.takeWhile isBare
    if bare.isEmpty then none else some (String.ofList bare, cs.drop bare.length)

/-- No key has this many parts, and nothing is nested this deep. -/
def levels : Nat := 80

def readKeyWithin : Nat → List Char → Read (List String)
  | 0, _ => none
  | n + 1, cs =>
    match readSimpleKey (skipGaps cs) with
    | none => none
    | some (part, rest) =>
      match skipGaps rest with
      | '.' :: rest => (readKeyWithin n rest).map fun (parts, rest) => (part :: parts, rest)
      | rest => some ([part], rest)

def readKey : List Char → Read (List String) :=
  readKeyWithin (levels - 1)

/-!
# Items
-/

def readElements (element : List Char → Read Item) (n : Nat) (seen : List Item)
    (cs : List Char) : Read Item :=
  match n, skipAny cs.length cs with
  | 0, _ => none
  | _, none => none
  | n + 1, some cs =>
    match cs with
    | ']' :: rest => some (.list seen.reverse, rest)
    | cs =>
      match element cs with
      | none => none
      | some (item, rest) =>
        match skipAny rest.length rest with
        | some (',' :: rest) => readElements element n (item :: seen) rest
        | some (']' :: rest) => some (.list (item :: seen).reverse, rest)
        | _ => none

def readEntry (element : List Char → Read Item) (cs : List Char) : Read (List String × Item) :=
  match readKey cs with
  | some (key, '=' :: rest) =>
    (element (skipGaps rest)).map fun (item, rest) => ((key, item), rest)
  | _ => none

def readEntries (element : List Char → Read Item) (n : Nat) (seen : Members)
    (cs : List Char) : Read Item :=
  match n with
  | 0 => none
  | n + 1 =>
    match readEntry element cs with
    | none => none
    | some ((key, item), rest) =>
      match seen.put? true key item, skipGaps rest with
      | some seen, ',' :: rest => readEntries element n seen rest
      | some seen, '}' :: rest => some (.table .inline seen, rest)
      | _, _ => none

def readItem : Nat → List Char → Read Item
  | 0, cs => readScalar cs
  | depth + 1, cs =>
    match cs with
    | '[' :: rest => readElements (readItem depth) (rest.length + 1) [] rest
    | '{' :: rest =>
      match skipGaps rest with
      | '}' :: rest => some (.table .inline [], rest)
      | rest => readEntries (readItem depth) (rest.length + 1) [] rest
    | cs => readScalar cs

/-!
# Lines
-/

/-- The members read so far and the path of the table that keys go to. -/
structure Reading where
  members : Members
  path : List String

def openHeader? (isRow : Bool) (key : List String) (members : Members) : Option Reading :=
  match key.getLast? with
  | none => none
  | some last =>
    let edit := if isRow then Members.openRow? last else Members.openTable? last
    (members.at? edit key.dropLast).map fun members => ⟨members, key⟩

def readHeader (members : Members) (cs : List Char) : Read Reading :=
  match cs with
  | '[' :: '[' :: rest =>
    match readKey rest with
    | some (key, ']' :: ']' :: rest) =>
      (openHeader? true key members).map fun reading => (reading, rest)
    | _ => none
  | '[' :: rest =>
    match readKey rest with
    | some (key, ']' :: rest) =>
      (openHeader? false key members).map fun reading => (reading, rest)
    | _ => none
  | _ => none

def readLine (r : Reading) (cs : List Char) : Read Reading :=
  match cs with
  | [] => some (r, [])
  | '#' :: _ => some (r, cs)
  | '\n' :: _ => some (r, cs)
  | '\r' :: _ => some (r, cs)
  | '[' :: _ => readHeader r.members cs
  | _ =>
    match readEntry (readItem (levels - 1)) cs with
    | none => none
    | some ((key, item), rest) =>
      (r.members.at? (Members.put? true key item) r.path).map fun members =>
        (⟨members, r.path⟩, rest)

def readLinesWithin : Nat → Reading → List Char → Option Members
  | _, r, [] => some r.members
  | 0, _, _ => none
  | n + 1, r, cs =>
    match readLine r (skipGaps cs) with
    | none => none
    | some (r, rest) =>
      match afterLine? rest with
      | none => none
      | some rest => readLinesWithin n r rest

/-- The members of a document; a mark of byte order before it is passed over. -/
def read? (text : String) : Option Members :=
  let cs := match text.toList with
    | [] => []
    | c :: rest => if c = Char.ofNat 0xFEFF then rest else c :: rest
  readLinesWithin cs.length ⟨[], []⟩ cs

end Toml
end Parley
