import Parley.Log.Filter
import Parley.Text.Printable

/-!
# Warnings

What a warning says, and the part of the program that it comes from. Controls
that a terminal would obey are written by number.
-/

namespace Parley
namespace Log

structure Warning where
  source : String
  text : String
  deriving DecidableEq, Repr

/-- A character of a log line: escape, bell, backspace, form feed and delete by two digits, the
controls beyond ASCII by their number. -/
def guardChar (c : Char) : List Char :=
  let n := c.toNat
  if n = 0x1B || n = 7 || n = 8 || n = 12 || n = 127 then
    ['\\', 'x', Text.Hex.digit (n / 16), Text.Hex.digit (n % 16)]
  else if 0x80 ≤ n && n < 0xA0 then Text.codePoint c
  else [c]

namespace Warning

def write (w : Warning) : String :=
  w.source ++ ": " ++ String.ofList (w.text.toList.flatMap guardChar)

def logged (f : Filter) (warnings : List Warning) : List Warning :=
  warnings.filter fun w => f.lets .warning w.source

end Warning
end Log
end Parley
