import Parley.Frame.Binary
import Parley.Json.Decode
import Parley.Json.Write

/-!
# Pongs

The answer to a ping gives its time back. A time that is a whole number of at
most fifty-three bits is written as an integer, a negative zero as zero.
-/

namespace Parley

structure Pong where
  kind : String
  time : Floating
  deriving DecidableEq, Repr

namespace Pong

def ofTime (time : Floating) : Pong :=
  ⟨"PONG", time⟩

/-- Integers beyond this one have neighbours that are not told apart. -/
def maxSafe : Nat :=
  9007199254740991

def timeNumber (time : Floating) : Json.Number :=
  match time.toInt? with
  | some n => if n.natAbs ≤ maxSafe then .int n else .real time
  | none => .real time

def toJson (p : Pong) : Json.Value :=
  .object [("type", .string p.kind), ("timestamp", .number (timeNumber p.time))]

def write (p : Pong) : String :=
  p.toJson.write

/-!
# Reading
-/

structure Draft where
  kind : Option String := none
  time : Option Floating := none

def Draft.member (d : Draft) (name : String) (t : Json.Tree) : Except Json.Fault Draft := do
  if name = "type" then
    let kind ← Json.Reader.once Json.Reader.string d.kind t
    pure ⟨kind, d.time⟩
  else if name = "timestamp" then
    let time ← Json.Reader.once Json.Reader.real d.time t
    pure ⟨d.kind, time⟩
  else
    Json.Reader.skip t
    pure d

def Draft.finish (d : Draft) : Except Json.Fault Pong := do
  let kind ← Json.Reader.required d.kind
  let time ← Json.Reader.required d.time
  pure ⟨kind, time⟩

def reader : Json.Reader Pong
  | .object members ending => do
    (← Json.Reader.members Draft.member ending {} members).finish
  | .array items ending =>
    Json.Reader.row
      (do
        let kind ← Json.Reader.required (← Json.Reader.Row.next Json.Reader.string)
        let time ← Json.Reader.required (← Json.Reader.Row.next Json.Reader.real)
        pure ⟨kind, time⟩)
      items ending .malformed
  | t => .error (Json.Reader.wrong t)

end Pong
end Parley
