import Parley.Json.Tree

/-!
# Reading typed values

Readers take a tree apart from left to right and stop at the first fault:
`malformed` where the text is no JSON, `mismatch` where it is JSON of another
shape. A record is an object of named fields, each at most once, or an array of
its fields in order.
-/

namespace Parley
namespace Json

inductive Fault where
  | malformed
  | mismatch
  deriving DecidableEq, Repr

abbrev Reader (α : Type) := Tree → Except Fault α

namespace Reader

/-- The fault of a value that has the wrong shape: its own, if reading it had failed first. -/
def wrong : Tree → Fault
  | .broken => .malformed
  | .string none => .malformed
  | .number l => if l.number?.isSome then .mismatch else .malformed
  | _ => .mismatch

def string : Reader String
  | .string (some s) => .ok s
  | t => .error (wrong t)

def number : Reader Number
  | .number l =>
    match l.number? with
    | some n => .ok n
    | none => .error .malformed
  | t => .error (wrong t)

def int (low high : Int) : Reader Int := fun t => do
  match ← number t with
  | .int n => if low ≤ n ∧ n ≤ high then .ok n else .error .mismatch
  | .real _ => .error .mismatch

def real : Reader Floating := fun t => do
  match ← number t with
  | .int n =>
    let x := Floating.ofNat .binary64 n.natAbs
    .ok (if n < 0 then x.negate else x)
  | .real x => .ok x

def option (read : Reader α) : Reader (Option α)
  | .null => .ok none
  | t => (read t).map some

def skip : Reader Unit := fun t =>
  if t.isWhole then .ok () else .error .malformed

def generic (room : Nat) : Reader Value := fun t =>
  match t.value? room with
  | some v => .ok v
  | none => .error .malformed

def null : Reader Unit
  | .null => .ok ()
  | t => .error (wrong t)

/-- Null, or an object without members where the value was kept as a generic one. -/
def nullOrEmpty : Reader Unit
  | .object [] .closed => .ok ()
  | t => null t

/-- One of several names: a string, or an object that gives the name an empty value. -/
def choice (choose : String → Option α) (payload : Reader Unit) : Reader α
  | .string (some s) =>
    match choose s with
    | some a => .ok a
    | none => .error .mismatch
  | .object ((some name, t) :: more) ending =>
    match choose name with
    | none => .error .mismatch
    | some a => do
      payload t
      if more.isEmpty && ending == .closed then .ok a else .error .malformed
  | .object [] .nameless => .error .mismatch
  | _ => .error .malformed

/-!
# Records
-/

def once (read : Reader α) (slot : Option α) (t : Tree) : Except Fault (Option α) :=
  match slot with
  | some _ => .error .mismatch
  | none => (read t).map some

def required : Option α → Except Fault α
  | some a => .ok a
  | none => .error .mismatch

def members (step : σ → String → Tree → Except Fault σ) (ending : Ending) :
    σ → List (Option String × Tree) → Except Fault σ
  | draft, [] => if ending == .closed then .ok draft else .error .malformed
  | _, (none, _) :: _ => .error .malformed
  | draft, (some name, t) :: more => do
    let draft ← step draft name t
    members step ending draft more

/-- The fields of a record that are still to be read from an array. -/
structure Row where
  items : List Tree
  ending : Ending

def Row.next (read : Reader α) : StateT Row (Except Fault) (Option α) := do
  match (← get) with
  | ⟨t :: rest, ending⟩ =>
    let a ← read t
    set (Row.mk rest ending)
    pure (some a)
  | ⟨[], .closed⟩ => pure none
  | ⟨[], _⟩ => throw .malformed

def row (read : StateT Row (Except Fault) α) (items : List Tree) (ending : Ending)
    (leftOver : Fault) : Except Fault α := do
  let (a, rest) ← read.run ⟨items, ending⟩
  match rest with
  | ⟨[], .closed⟩ => .ok a
  | ⟨[], _⟩ => .error .malformed
  | ⟨_ :: _, _⟩ => .error leftOver

def list (read : Reader α) : Reader (List α)
  | .array items ending => do
    let as ← items.mapM read
    if ending == .closed then .ok as else .error .malformed
  | t => .error (wrong t)

end Reader

def decode (read : Reader α) (s : String) : Except Fault α := do
  let (t, rest) := Tree.read s
  let a ← read t
  if rest.isEmpty then .ok a else .error .malformed

def decodeFirst (read : Reader α) (s : String) : Except Fault α :=
  read (Tree.read s).1

end Json
end Parley
