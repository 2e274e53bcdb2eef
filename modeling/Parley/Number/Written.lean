import Parley.Number.Floating
import Parley.Text.Digit

/-!
# Written decimals

The datum that a decimal text names: a sign or none, digits with a point among
them or beside them, an exponent or none; or, in any case, one of the words for
infinity and for no number.
-/

namespace Parley
namespace Floating
namespace Written

def sign : List Char → Bool × List Char
  | '-' :: rest => (true, rest)
  | '+' :: rest => (false, rest)
  | cs => (false, cs)

/-- The exponent that the rest of a number writes; nothing at all writes zero. -/
def exponent? : List Char → Option Int
  | [] => some 0
  | 'e' :: rest | 'E' :: rest =>
    let (negative, ds) := sign rest
    (Text.natOfDigits? ds).map fun n => if negative then -n else n
  | _ => none

def mantissa (cs : List Char) : List Char × List Char × List Char :=
  let whole := cs.takeWhile Text.isAsciiDigit
  match cs.dropWhile Text.isAsciiDigit with
  | '.' :: rest => (whole, rest.takeWhile Text.isAsciiDigit, rest.dropWhile Text.isAsciiDigit)
  | rest => (whole, [], rest)

def number? (f : Format) (negative : Bool) (cs : List Char) : Option Floating :=
  let (whole, places, rest) := mantissa cs
  match Text.natOfDigits? (whole ++ places), exponent? rest with
  | some n, some e => some (ofDecimal f negative n (e - places.length))
  | _, _ => none

def word? (negative : Bool) (cs : List Char) : Option Floating :=
  match cs.map Char.toLower with
  | ['i', 'n', 'f'] | ['i', 'n', 'f', 'i', 'n', 'i', 't', 'y'] => some (.infinite negative)
  | ['n', 'a', 'n'] => some .nan
  | _ => none

end Written

def ofText? (f : Format) (cs : List Char) : Option Floating :=
  let (negative, rest) := Written.sign cs
  match Written.word? negative rest with
  | some x => some x
  | none => Written.number? f negative rest

end Floating
end Parley
