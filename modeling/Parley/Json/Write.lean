import Parley.Json.Value
import Parley.Text.Hex

/-!
# Writing JSON

The compact form: no blanks, members in the order in which they stand, text as
it is but for quotes, backslashes and the characters below U+0020.
-/

namespace Parley
namespace Json

/-- Positional from 0.00001 and below 10^16, scientific outside. -/
def layout : Floating.Layout :=
  ⟨-5, 16⟩

namespace Write

def escape (c : Char) : List Char :=
  if c = '"' then ['\\', '"']
  else if c = '\\' then ['\\', '\\']
  else if c = '\x08' then ['\\', 'b']
  else if c = '\x0c' then ['\\', 'f']
  else if c = '\n' then ['\\', 'n']
  else if c = '\r' then ['\\', 'r']
  else if c = '\t' then ['\\', 't']
  else if c.toNat < 0x20 then
    ['\\', 'u', '0', '0', Text.Hex.digit (c.toNat / 16), Text.Hex.digit (c.toNat % 16)]
  else [c]

def string (s : String) : List Char :=
  '"' :: (s.toList.flatMap escape ++ ['"'])

def real : Floating → List Char
  | .finite negative m q =>
    (if negative then ['-'] else []) ++ layout.write (Floating.shortest .binary64 m q)
  | _ => ['n', 'u', 'l', 'l']

def number : Number → List Char
  | .int n => Text.intDigits n
  | .real x => real x

def value : Value → List Char
  | .null => ['n', 'u', 'l', 'l']
  | .bool true => ['t', 'r', 'u', 'e']
  | .bool false => ['f', 'a', 'l', 's', 'e']
  | .number n => number n
  | .string s => string s
  | .array items => '[' :: (values items ++ [']'])
  | .object ms => '\x7b' :: (members ms ++ ['\x7d'])
where
  values : List Value → List Char
    | [] => []
    | [v] => value v
    | v :: vs => value v ++ ',' :: values vs
  members : List (String × Value) → List Char
    | [] => []
    | [(n, v)] => string n ++ ':' :: value v
    | (n, v) :: ms => string n ++ ':' :: (value v ++ ',' :: members ms)

end Write

def Value.write (v : Value) : String :=
  String.ofList (Write.value v)

end Json
end Parley
