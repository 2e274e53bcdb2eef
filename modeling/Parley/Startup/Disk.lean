import Parley.Text.Blank

/-!
# Disks

What a machine holds in its folders, and what a path leads to. A place is told
by the names that lead to it from the root. Each step of a path has to start
from a folder, so a path through a file leads nowhere, even if it turns back.
-/

namespace Parley
namespace Startup

inductive Item where
  | file (content : String)
  /-- A folder, and whether files can be made in it. -/
  | folder (isOpen : Bool)
  /-- What has no content of its own and reads as empty. -/
  | device
  deriving DecidableEq, Repr

inductive Found where
  | item (i : Item)
  | missing
  /-- Nothing: it goes on where there is no folder, or has too long a name. -/
  | barred
  deriving DecidableEq, Repr

structure Disk where
  items : List (List String × Item)
  /-- The folder that paths start from unless they start from the root. -/
  here : List String
  deriving DecidableEq, Repr

def longestName : Nat :=
  255

def longestPath : Nat :=
  4095

/-- The steps of a path; single points and empty steps are among them. -/
def steps (path : String) : List String :=
  (Text.splitOn '/' path.toList).map String.ofList

def startsAtRoot (path : String) : Bool :=
  path.toList.head? = some '/'

namespace Disk

def item? (d : Disk) (place : List String) : Option Item :=
  if place.isEmpty then some (.folder true) else d.items.lookup place

def isFolder (d : Disk) (place : List String) : Bool :=
  match d.item? place with
  | some (.folder _) => true
  | _ => false

def walk (d : Disk) (place : List String) : List String → Found
  | [] =>
    match d.item? place with
    | some i => .item i
    | none => .missing
  | name :: rest =>
    if !d.isFolder place then .barred
    else if name.isEmpty || name = "." then d.walk place rest
    else if name = ".." then d.walk place.dropLast rest
    else if longestName < name.utf8ByteSize then .barred
    else if (d.item? (place ++ [name])).isNone then .missing
    else d.walk (place ++ [name]) rest

def find (d : Disk) (path : String) : Found :=
  if path.isEmpty then .missing
  else if longestPath < path.utf8ByteSize then .barred
  else d.walk (if startsAtRoot path then [] else d.here) (steps path)

def create (d : Disk) (place : List String) : Bool × Disk :=
  match d.item? place.dropLast, d.item? place with
  | some (.folder true), none => (true, { d with items := (place, .file "") :: d.items })
  | _, _ => (false, d)

def names (d : Disk) : List String :=
  let inside := d.items.filterMap fun i =>
    if i.1.length = d.here.length + 1 && i.1.dropLast = d.here then i.1.getLast? else none
  inside.eraseDups.mergeSort fun a b => !(b < a)

def usualFolders : List String :=
  ["bin", "boot", "dev", "etc", "home", "lib", "media", "mnt", "opt", "root", "run", "sbin",
   "srv", "tmp", "usr", "var"]

def usualItems : List (List String × Item) :=
  usualFolders.map (fun name => ([name], .folder true)) ++
    ["proc", "sys"].map (fun name => ([name], .folder false)) ++
    ["null", "stdin", "zero"].map (fun name => (["dev", name], .device)) ++
    ["group", "hostname", "hosts", "passwd"].map fun name => (["etc", name], .file "root\n")

def usual (files : List (String × String)) : Disk :=
  let here := ["tmp", "work"]
  ⟨(files.reverse.map fun f => (here ++ [f.1], .file f.2)) ++ (here, .folder true) :: usualItems,
    here⟩

end Disk
end Startup
end Parley
