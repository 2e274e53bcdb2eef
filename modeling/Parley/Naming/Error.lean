/-!
# What can be wrong with a name
-/

namespace Parley

inductive NamingError where
  | emptyGroup
  | invalidKey (text : String)
  | unknownMarkup (text : String)
  | unknownPart (text : String)
  deriving DecidableEq, Repr

namespace NamingError

def message : NamingError → String
  | .emptyGroup => "group id must not be empty"
  | .invalidKey text => "invalid content hash: " ++ text
  | .unknownMarkup text => "unknown text kind: " ++ text
  | .unknownPart text => "unknown description kind: " ++ text

end NamingError
end Parley
