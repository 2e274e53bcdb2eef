import Parley.Backend.Question
import Parley.Backend.Reply
import Parley.Text.Printable

/-!
# Clients

A client puts one question to one backend and makes a translation of the
response. How a question travels is not its business: a transport takes it and
gives a response, or nothing.
-/

namespace Parley
namespace Backend

structure Response where
  status : Nat
  body : String
  deriving DecidableEq, Repr

structure Delivery where
  url : String
  authorization : Option String
  body : String
  deriving DecidableEq, Repr

abbrev Transport := Delivery → Option Response

structure Client where
  url : String
  model : String
  mode : Config.Mode
  key : Option String
  deriving DecidableEq, Repr

namespace Client

def ofConfig (c : Config.Translation) (key : Option String) : Client :=
  ⟨c.backendUrl, c.model, c.mode, key⟩

def ofEnvironment (c : Config.Translation) (env : String → Option String) :
    Except Failure Client :=
  match (env c.apiKeyEnv).filter fun key => !key.isEmpty with
  | some key => .ok (ofConfig c (some key))
  | none => .error (.missingKey c.apiKeyEnv)

def modeName : Config.Mode → String
  | .chat => "Chat"
  | .machine => "Machine"

/-- What the log says of a client; its key is not told. -/
def describe (c : Client) : String :=
  "ChatBackend \x7b url: " ++ Text.quote c.url ++ ", model: " ++ Text.quote c.model ++
    ", mode: " ++ modeName c.mode ++ ", has_api_key: " ++ toString c.key.isSome ++ " \x7d"

def isHeaderChar (c : Char) : Bool :=
  c == '\t' || (32 ≤ c.toNat && c.toNat != 127)

def delivery? (c : Client) (chunk locale : String) (markup : Markup) : Option Delivery :=
  let body := (Question.ofChunk c.mode c.model chunk locale markup).write
  match c.key with
  | none => some ⟨c.url, none, body⟩
  | some key =>
    if key.toList.all isHeaderChar then some ⟨c.url, some ("Bearer " ++ key), body⟩ else none

def translate (c : Client) (transport : Transport) (chunk locale : String) (markup : Markup) :
    Except Failure String :=
  match (c.delivery? chunk locale markup).bind transport with
  | some response => translationOf c.mode locale response.status response.body
  | none => .error .transport

end Client
end Backend
end Parley
