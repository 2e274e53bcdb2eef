import Parley.Json.Tree

/-!
# Text frames

A text frame that is a JSON object may say what kind of message it is, who
sends it and who is to receive it; a field counts when it is a nonempty string.
Every other text is opaque.
-/

namespace Parley

structure Routing where
  kind : Option String
  sender : Option String
  receiver : Option String
  deriving DecidableEq, Repr

inductive TextFrame where
  | routed (r : Routing)
  | unrouted
  deriving DecidableEq, Repr

namespace Routing

def field? (name : String) (v : Json.Value) : Option String :=
  ((v.member? name).bind Json.Value.string?).filter fun s => !s.isEmpty

def ofObject (v : Json.Value) : Routing :=
  ⟨field? "type" v, field? "sender" v, field? "receiver" v⟩

end Routing

namespace TextFrame

def ofText (text : String) : TextFrame :=
  match Json.parse? text with
  | some (.object members) => .routed (Routing.ofObject (.object members))
  | _ => .unrouted

def routing? : TextFrame → Option Routing
  | .routed r => some r
  | .unrouted => none

def sender? (f : TextFrame) : Option String :=
  f.routing?.bind (·.sender)

def receiver? (f : TextFrame) : Option String :=
  f.routing?.bind (·.receiver)

end TextFrame
end Parley
