/-!
# Why a backend gives no translation
-/

namespace Parley
namespace Backend

inductive Failure where
  /-- The question did not arrive, or no answer did. -/
  | transport
  /-- An answer that is no success and says nothing readable. -/
  | status (code : Nat) (body : String)
  /-- An error the backend tells. -/
  | told (code message kind : String)
  /-- A success that says nothing readable. -/
  | unreadable
  /-- A success without a choice. -/
  | empty
  | missingKey (name : String)
  deriving DecidableEq, Repr

def Failure.message : Failure → String
  | .transport => "transport error"
  | .status code body => "backend returned HTTP " ++ toString code ++ ": " ++ body
  | .told code message kind => "backend error " ++ code ++ ": " ++ message ++ " (" ++ kind ++ ")"
  | .unreadable => "malformed backend reply"
  | .empty => "backend reply had no choices"
  | .missingKey name =>
    "missing API key: environment variable " ++ name ++ " is not set"

end Backend
end Parley
