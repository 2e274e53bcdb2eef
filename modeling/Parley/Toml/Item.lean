/-!
# Items

What a TOML document holds. A table remembers how it came to be, because that
decides who may still add to it: a header may open a table once that other
headers only passed through, and dotted keys may add to tables of dotted keys.
-/

namespace Parley
namespace Toml

inductive Origin where
  /-- Opened by a header of its own. -/
  | header
  /-- Passed through by the header of another table. -/
  | path
  /-- Made by a dotted key. -/
  | dotted
  /-- Written in braces. -/
  | inline
  deriving DecidableEq, Repr

inductive Item where
  | text (s : String)
  | integer (n : Int)
  | real
  | flag (b : Bool)
  | moment
  | list (items : List Item)
  | table (origin : Origin) (members : List (String × Item))
  /-- The tables of a repeated header, latest first. -/
  | rows (tables : List (List (String × Item)))
  deriving Repr

abbrev Members := List (String × Item)

namespace Members

def find? (ms : Members) (key : String) : Option Item :=
  (List.find? (fun m => m.1 == key) ms).map Prod.snd

def set (ms : Members) (key : String) (item : Item) : Members :=
  if ms.any fun m => m.1 == key then
    ms.map fun m => if m.1 == key then (key, item) else m
  else ms ++ [(key, item)]

def add? (ms : Members) (key : String) (item : Item) : Option Members :=
  if ms.any fun m => m.1 == key then none else some (ms ++ [(key, item)])

/-!
# Dotted keys
-/

/-- Gives an item to a dotted key, whose last part goes into a table of dotted keys, or, if there is
no other part, into the table `isOpen`. -/
def put? (isOpen : Bool) : List String → Item → Members → Option Members
  | [], _, _ => none
  | [key], item, ms => if isOpen then ms.add? key item else none
  | key :: rest, item, ms =>
    match ms.find? key with
    | none => (put? true rest item []).map fun inner => ms.set key (.table .dotted inner)
    | some (.table .dotted inner) =>
      (put? true rest item inner).map fun inner => ms.set key (.table .dotted inner)
    | some (.table .path inner) =>
      (put? false rest item inner).map fun inner => ms.set key (.table .path inner)
    | some (.rows (last :: others)) =>
      (put? false rest item last).map fun last => ms.set key (.rows (last :: others))
    | _ => none

/-!
# Headers
-/

/-- Changes the table that a path leads to, through the latest of repeated tables. -/
def at? (edit : Members → Option Members) : List String → Members → Option Members
  | [], ms => edit ms
  | key :: rest, ms =>
    match ms.find? key with
    | none => (at? edit rest []).map fun inner => ms.set key (.table .path inner)
    | some (.table .inline _) => none
    | some (.table origin inner) =>
      (at? edit rest inner).map fun inner => ms.set key (.table origin inner)
    | some (.rows (last :: others)) =>
      (at? edit rest last).map fun last => ms.set key (.rows (last :: others))
    | _ => none

def openTable? (key : String) (ms : Members) : Option Members :=
  match ms.find? key with
  | none => some (ms.set key (.table .header []))
  | some (.table .path inner) => some (ms.set key (.table .header inner))
  | _ => none

def openRow? (key : String) (ms : Members) : Option Members :=
  match ms.find? key with
  | none => some (ms.set key (.rows [[]]))
  | some (.rows tables) => some (ms.set key (.rows ([] :: tables)))
  | _ => none

end Members
end Toml
end Parley
