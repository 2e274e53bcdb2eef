import Parley.Startup

/-!
# The program

Startup on the machine that the program runs on. Sockets are not part of this
library: where it would listen, the program says that the address is not bound.
-/

namespace Parley
namespace Startup

def findItem (path : String) : IO Found := do
  try
    return .item (.file (← IO.FS.readFile path))
  catch
    | .noFileOrDirectory .. => return .missing
    | _ =>
      if ← (← IO.FS.realPath path).isDir then return .item (.folder true)
      return .barred

def createFile (place : List String) : IO Bool := do
  try
    IO.FS.writeFile (pathOf place) ""
    return true
  catch _ => return false

def thisMachine : Host IO where
  setting name := IO.getEnv name
  here := return (steps (← IO.currentDir).toString).filter fun name => !name.isEmpty
  find := findItem
  create := createFile

def report (outcome : Outcome) : IO UInt32 := do
  for warning in outcome.warnings do
    IO.eprintln ("WARN " ++ warning.write)
  IO.print outcome.output
  IO.eprint outcome.errors
  match outcome.ending with
  | .exited code => return UInt32.ofNat code
  | .listening address _ =>
    IO.eprintln ("Error: binding " ++ address)
    return 1

end Startup
end Parley

def main (args : List String) : IO UInt32 := do
  Parley.Startup.report (← Parley.Startup.run Parley.Startup.thisMachine args)
