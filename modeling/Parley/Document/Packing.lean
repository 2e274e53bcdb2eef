/-!
# Packing

Pieces are joined in order into chunks of at most `window` characters. A piece
goes into the chunk under way if it still fits there, else it begins the next
one. A piece is never cut, so one that is larger than the window stands alone.
-/

namespace Parley
namespace Document

def packAfter (window : Nat) (current : String) : List String → List String
  | [] => if current.isEmpty then [] else [current]
  | piece :: rest =>
    if !current.isEmpty && window < current.length + piece.length then
      current :: packAfter window piece rest
    else packAfter window (current ++ piece) rest

def pack (window : Nat) (pieces : List String) : List String :=
  packAfter window "" pieces

end Document
end Parley
