import Parley.Startup.Disk
import Parley.Text.Percent
import Parley.Text.Digit

/-!
# Locations of a store

A store is located by a path, or by `file:` and a path with settings after a
question mark. The settings say how much the store may be changed, and whether
it is on the disk at all. A location with a setting that cannot be met is none.
-/

namespace Parley
namespace Startup

/-- What may be done at a location: to read, to change what is there, to make what is not, or to
do without the disk. -/
inductive Access where
  | reading
  | changing
  | making
  | passing
  deriving DecidableEq, Repr

def Access.reach : Access → Nat
  | .reading => 1
  | .changing => 2
  | .making => 3
  | .passing => 4

def Access.ofName? (name : String) : Option Access :=
  match name with
  | "ro" => some .reading
  | "rw" => some .changing
  | "rwc" => some .making
  | "memory" => some .passing
  | _ => none

structure Location where
  path : String
  access : Access
  /-- Whether the file is taken to be one that never changes. -/
  isFrozen : Bool
  /-- The name of the way in which files are kept. -/
  keeping : String
  deriving DecidableEq, Repr

namespace Location

def ofPath (path : String) : Location :=
  ⟨path, .making, false, "unix"⟩

/-!
# Settings
-/

/-- Percent-encoding undone; what follows a zero byte is left out. -/
def decode (cs : List Char) : String :=
  Text.Utf8.decodeLenient
    ((Text.Percent.decodeBytes (Text.Utf8.encode (String.ofList cs))).takeWhile (· != 0))

def settings (cs : List Char) : List (String × String) :=
  ((Text.splitOn '&' cs).map fun piece =>
    (decode (piece.takeWhile (· != '=')), decode ((piece.dropWhile (· != '=')).drop 1))).filter
      fun setting => !setting.1.isEmpty

def isYes (value : String) : Bool :=
  let digits := value.toList.takeWhile Text.isAsciiDigit
  if digits.isEmpty then ["on", "yes", "true"].contains (Text.lowerAscii value)
  else (Text.natOfDigits? digits).any fun n => n < 2147483648 && n % 256 != 0

def keepings : List String :=
  ["unix", "unix-none", "unix-dotfile", "unix-excl", "memdb"]

/-- A location with one setting more. An access may only be made narrower. -/
def withSetting (l : Location) (name value : String) : Option Location :=
  match name with
  | "mode" =>
    (Access.ofName? value).bind fun access =>
      if access = .passing ∨ access.reach ≤ l.access.reach then some { l with access := access }
      else none
  | "cache" => if value = "shared" || value = "private" then some l else none
  | "vfs" => some { l with keeping := value }
  | _ => some l

def frozen (settings : List (String × String)) : Bool :=
  ((settings.find? fun s => s.1 == "immutable").map fun s => isYes s.2).getD false

/-!
# Reading
-/

def afterMachine? (cs : List Char) : Option (List Char) :=
  match Text.after? ['/', '/'] cs with
  | none => some cs
  | some rest =>
    let machine := String.ofList (rest.takeWhile (· != '/'))
    if machine.isEmpty || machine = "localhost" then some (rest.dropWhile (· != '/')) else none

def ofReference? (cs : List Char) : Option Location := do
  let rest := (← afterMachine? cs).takeWhile (· != '#')
  let settings := settings ((rest.dropWhile (· != '?')).drop 1)
  let path := ofPath (decode (rest.takeWhile (· != '?')))
  let l ← settings.foldlM (fun (l : Location) s => l.withSetting s.1 s.2)
    { path with isFrozen := frozen settings }
  if keepings.contains l.keeping then some l else none

def ofString? (s : String) : Option Location :=
  if s.toList.contains (Char.ofNat 0) then none
  else
    match Text.after? "file:".toList s.toList with
    | some rest => ofReference? rest
    | none => some (ofPath s)

/-!
# Kinds of places
-/

def isInMemory (l : Location) : Bool :=
  l.path.isEmpty || l.path = ":memory:" || l.access = .passing

def isNominal (l : Location) : Bool :=
  l.keeping = "memdb"

end Location
end Startup
end Parley
