import Parley.Text.Blank
import Parley.Text.Hex

/-!
# Runs of code points

A class of characters as lines of text: hexadecimal code points with spaces
between them, single or from first to last.
-/

namespace Parley
namespace Text

def hexNumber (cs : List Char) : Nat :=
  cs.foldl (fun n c => 16 * n + (Hex.value? c).getD 0) 0

def readRun (cs : List Char) : Nat × Nat :=
  match splitOn '-' cs with
  | [first, last] => (hexNumber first, hexNumber last)
  | _ => (hexNumber cs, hexNumber cs)

def readRuns (lines : List String) : List (Nat × Nat) :=
  lines.flatMap fun line => (splitOn ' ' line.toList).map readRun

def isInRuns (runs : List (Nat × Nat)) (n : Nat) : Bool :=
  runs.any fun run => run.1 ≤ n && n ≤ run.2

end Text
end Parley
