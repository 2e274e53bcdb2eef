import Parley.Translation.Entry

/-!
# The cache

Entries are kept as rows of text, one a key, and never change once written. A
row that was written by other hands may not say an entry.
-/

namespace Parley
namespace Translation

structure Row where
  key : String
  content : String
  locale : String
  markup : String
  part : String
  createdAt : Int
  deriving DecidableEq, Repr

namespace Row

def ofEntry (e : Entry) : Row :=
  ⟨e.key.toHex, e.content, e.locale, e.markup.mime, e.part.name, e.createdAt⟩

def toEntry (r : Row) : Except NamingError Entry := do
  return ⟨← ContentKey.ofHex r.key, r.content, r.locale, ← Markup.ofString r.markup,
    ← Part.ofString r.part, r.createdAt⟩

end Row

structure Cache where
  rows : List Row
  deriving DecidableEq, Repr

namespace Cache

def empty : Cache :=
  ⟨[]⟩

def row? (c : Cache) (key : ContentKey) : Option Row :=
  c.rows.find? fun r => r.key == key.toHex

def addRow (c : Cache) (row : Row) : Bool × Cache :=
  if c.rows.any fun r => r.key == row.key then (false, c) else (true, ⟨c.rows ++ [row]⟩)

def get (c : Cache) (key : ContentKey) : Except NamingError (Option Entry) :=
  match c.row? key with
  | none => .ok none
  | some row => row.toEntry.map some

def insert (c : Cache) (e : Entry) : Bool × Cache :=
  c.addRow (Row.ofEntry e)

def count (c : Cache) : Nat :=
  c.rows.length

end Cache
end Translation
end Parley
