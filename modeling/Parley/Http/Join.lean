import Parley.Http.Message
import Parley.Http.Target
import Parley.Naming.Party

/-!
# Joining over HTTP

A group is joined by asking for its path and for another protocol at once. The
query may name the peer; an empty name names nobody.
-/

namespace Parley
namespace Http

structure Invitation where
  group : GroupName
  hint : Option PeerId
  deriving DecidableEq, Repr

namespace Invitation

def clients (query : String) : List String :=
  (Text.Percent.formFields query).filterMap fun f =>
    if f.1 = "client" then some f.2 else none

def read (segment query : String) : Except Response (String × Option PeerId) :=
  match Text.Percent.decodeSegment? segment with
  | none => .error (.plain 400 "Invalid URL: Invalid UTF-8 in `id`")
  | some group =>
    match clients query with
    | [] => .ok (group, none)
    | [client] => .ok (group, if client.isEmpty then none else some ⟨client⟩)
    | _ => .error (.plain 400 "Failed to deserialize query string: duplicate field `client`")

def declined (segment query : String) : Response :=
  match read segment query with
  | .error r => r
  | .ok _ => .plain 501 "Not Implemented"

def ofTarget (target : String) : Except Response Invitation :=
  match Target.ofString? target with
  | none => .error (.bare 400)
  | some t =>
    match Route.ofPath? t.path with
    | some (.group segment) => do
      let (name, hint) ← read segment t.query
      match GroupName.ofString name with
      | .ok group => pure ⟨group, hint⟩
      | .error e => throw (.plain 400 e.message)
    | _ => .error (.bare 404)

end Invitation
end Http
end Parley
