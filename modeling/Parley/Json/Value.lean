import Parley.Number.Shortest

/-!
# JSON values

A number is an integer of at most 64 bits or a binary64 datum. The members of
an object keep the order in which they stand.
-/

namespace Parley
namespace Json

inductive Number where
  | int (n : Int)
  | real (x : Floating)
  deriving DecidableEq, Repr

inductive Value where
  | null
  | bool (b : Bool)
  | number (n : Number)
  | string (s : String)
  | array (items : List Value)
  | object (members : List (String × Value))
  deriving Repr

namespace Value

def int (n : Int) : Value :=
  .number (.int n)

def ofOption (f : α → Value) : Option α → Value
  | none => .null
  | some a => f a

/-- The value of the member of this name; in an object with sorted names there is one at most. -/
def member? (name : String) : Value → Option Value
  | .object members => (members.find? fun m => m.1 == name).map (·.2)
  | _ => none

def string? : Value → Option String
  | .string s => some s
  | _ => none

end Value

/-!
# Sorted members

Names compare by code points, which is also the order of their UTF-8 bytes.
-/

def insertMember (m : String × Value) : List (String × Value) → List (String × Value)
  | [] => [m]
  | n :: rest =>
    if m.1 < n.1 then m :: n :: rest
    else if m.1 = n.1 then m :: rest
    else n :: insertMember m rest

/-- Names in order, each once, with the value that came last. -/
def sortMembers (members : List (String × Value)) : List (String × Value) :=
  members.foldl (fun sorted m => insertMember m sorted) []

end Json
end Parley
