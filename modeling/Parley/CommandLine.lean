import Parley.Text.Terminal

/-!
# The command line

One option takes a value, which stands after an equals sign or as the next
argument, and may be given once. Two flags ask for nothing but a text. What is
wrong is told in the order in which it is met; whether an option has its value
shows only when the next one is met, or the end.
-/

namespace Parley

inductive Command where
  | serve (config : String)
  | help
  | version
  deriving DecidableEq, Repr

namespace Command

inductive Refusal where
  | unexpected (argument : String)
  | unexpectedValue (value flag : String)
  | missingValue
  | repeated
  deriving DecidableEq, Repr

/-- What a refusal says; of an argument it repeats what a terminal would show. -/
def Refusal.message : Refusal → String
  | .unexpected argument => "unexpected argument '" ++ Text.Terminal.plain argument ++ "' found"
  | .unexpectedValue value flag =>
    "unexpected value '" ++ Text.Terminal.plain value ++ "' for '" ++ flag ++
      "' found; no more were expected"
  | .missingValue => "a value is required for '--config <CONFIG>' but none was supplied"
  | .repeated => "the argument '--config <CONFIG>' cannot be used multiple times"

def defaultConfig : String :=
  "edge.toml"

/-!
# Arguments
-/

inductive Argument where
  /-- An option of more than one letter, and the value that is attached to it. -/
  | long (name : String) (value : Option String)
  | short (letter : Char)
  /-- Nothing after this is an option. -/
  | separator
  | plain
  deriving DecidableEq, Repr

def Argument.ofString (s : String) : Argument :=
  match s.toList with
  | ['-', '-'] => .separator
  | '-' :: '-' :: cs =>
    let name := cs.takeWhile (· ≠ '=')
    .long (String.ofList name)
      (if name.length = cs.length then none else some (String.ofList (cs.drop (name.length + 1))))
  | '-' :: c :: _ => .short c
  | _ => .plain

structure Reading where
  value : Option String := none
  /-- Whether an occurrence waits to be settled, and the value it has got. -/
  pending : Option (Option String) := none
  deriving DecidableEq, Repr

namespace Reading

def isWaiting (r : Reading) : Bool :=
  r.pending = some none

/-- Gives the option a value that is not empty, unless it has one. -/
def give (r : Reading) (value : String) : Except Refusal Reading :=
  if r.value.isSome then .error .repeated
  else if value.isEmpty then .error .missingValue
  else .ok ⟨some value, none⟩

def settle (r : Reading) : Except Refusal Reading :=
  match r.pending with
  | none => .ok r
  | some none => .error .missingValue
  | some (some value) => r.give value

end Reading

def flag (r : Reading) (c : Command) : Except Refusal Command :=
  r.settle.map fun _ => c

def long (r : Reading) (name : String) (value : Option String) :
    Except Refusal (Command ⊕ Reading) :=
  if name = "config" then
    match value with
    | none => r.settle.map fun r => .inr { r with pending := some none }
    | some v => (r.settle.bind fun r => r.give v).map .inr
  else
    match (if name = "help" then some Command.help
      else if name = "version" then some .version else none), value with
    | some c, none => (flag r c).map .inl
    | some _, some v => .error (.unexpectedValue v ("--" ++ name))
    | none, _ => .error (.unexpected ("--" ++ name))

def short (r : Reading) (letter : Char) : Except Refusal Command :=
  if letter = 'h' then flag r .help
  else if letter = 'V' then flag r .version
  else .error (.unexpected ("-" ++ letter.toString))

def finish (r : Reading) : Except Refusal Command :=
  r.settle.map fun r => .serve (r.value.getD defaultConfig)

def read (r : Reading) : List String → Except Refusal Command
  | [] => finish r
  | s :: rest =>
    match Argument.ofString s with
    | .separator =>
      match rest with
      | [] => finish r
      | t :: _ => .error (.unexpected t)
    | .long name value =>
      match long r name value with
      | .error e => .error e
      | .ok (.inl c) => .ok c
      | .ok (.inr r) => read r rest
    | .short letter => short r letter
    | .plain =>
      if r.isWaiting then read { r with pending := some (some s) } rest
      else .error (.unexpected s)

def ofArguments (args : List String) : Except Refusal Command :=
  read {} args

/-!
# Texts
-/

def usage : String :=
  "Usage: xmcl-edge [OPTIONS]\n"

def helpText : String :=
  "Group relay and translation cache server for XMCL\n\n" ++ usage ++
    "\nOptions:\n      --config <CONFIG>  Path to the TOML configuration file [default: " ++
    defaultConfig ++ "]\n  -h, --help             Print help\n" ++
    "  -V, --version          Print version\n"

def Refusal.report (e : Refusal) : String :=
  "error: " ++ e.message ++ "\n\n" ++ usage ++ "\nFor more information, try '--help'.\n"

end Command
end Parley
