import Parley.Text.Blank
import Parley.Text.Percent

/-!
# Targets

What a request is for: a path, a query if there is one, and a fragment that
nobody reads. The path is matched as it stands; a part that it names is decoded
afterwards.
-/

namespace Parley
namespace Http

structure Target where
  path : String
  query : String
  deriving DecidableEq, Repr

namespace Target

def isPathChar (c : Char) : Bool :=
  '!' ≤ c && c ≠ '<' && c ≠ '>' && c ≠ Char.ofNat 96

def isQueryChar (c : Char) : Bool :=
  '!' ≤ c && c ≠ '"' && c ≠ '<' && c ≠ '>'

def ofString? (s : String) : Option Target :=
  let shown := s.toList.takeWhile (· ≠ '#')
  let path := shown.takeWhile (· ≠ '?')
  let query := (shown.dropWhile (· ≠ '?')).drop 1
  if path.all isPathChar && query.all isQueryChar then
    some ⟨String.ofList path, String.ofList query⟩
  else none

end Target

inductive Route where
  | group (segment : String)
  | translation
  | health
  | metrics
  deriving DecidableEq, Repr

namespace Route

/-- A group's route has one segment after its first, and the segment is not empty. -/
def ofPath? (path : String) : Option Route :=
  if path = "/translation" then some .translation
  else if path = "/health" then some .health
  else if path = "/metrics" then some .metrics
  else
    match Text.after? "/group/".toList path.toList with
    | some segment =>
      if segment.isEmpty || segment.contains '/' then none
      else some (.group (String.ofList segment))
    | none => none

def methods : Route → List String
  | .translation => ["POST"]
  | _ => ["GET", "HEAD"]

end Route
end Http
end Parley
