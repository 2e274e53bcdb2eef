import Parley.Json.Write
import Parley.Text.Blank

/-!
# Requests and responses

The parts of an HTTP message that decide an answer or show in it. Names of
header fields are compared without regard to case, and of several fields with
one name only the first is read.
-/

namespace Parley
namespace Http

abbrev Field :=
  String × String

def valueOf? (name : String) (fields : List Field) : Option String :=
  (fields.find? fun f => Text.eqIgnoreCase f.1 name).map (·.2)

structure Request where
  method : String
  /-- Path and query, as they came. -/
  target : String
  fields : List Field
  body : List UInt8
  deriving DecidableEq, Repr

/-- A field's value, if it has nothing but visible ASCII characters, spaces and tabs. -/
def Request.plainValue? (r : Request) (name : String) : Option String :=
  (valueOf? name r.fields).filter fun v =>
    v.toList.all fun c => c = '\t' || (' ' ≤ c && c ≤ '~')

structure Response where
  status : Nat
  fields : List Field
  body : String
  deriving DecidableEq, Repr

namespace Response

def bare (status : Nat) : Response :=
  ⟨status, [], ""⟩

def typed (status : Nat) (mime body : String) : Response :=
  ⟨status, [("content-type", mime)], body⟩

def plain (status : Nat) (body : String) : Response :=
  typed status "text/plain; charset=utf-8" body

def json (status : Nat) (v : Json.Value) : Response :=
  typed status "application/json" v.write

def failure (status : Nat) (kind message : String) : Response :=
  json status
    (.object
      [("error", .object
        [("code", .int status), ("message", .string message), ("type", .string kind)])])

def withField (r : Response) (name value : String) : Response :=
  { r with fields := r.fields ++ [(name, value)] }

/-- Adds a field if its value can stand in one: a tab is the only control character there. -/
def withFieldIfAllowed (r : Response) (name value : String) : Response :=
  if value.toList.all fun c => c = '\t' || (' ' ≤ c && c ≠ Char.ofNat 127) then
    r.withField name value
  else r

def withoutBody (r : Response) : Response :=
  { r with body := "" }

end Response
end Http
end Parley
