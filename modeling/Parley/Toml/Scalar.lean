import Parley.Number.Floating
import Parley.Text.Digit
import Parley.Toml.Item
import Parley.Toml.Quoted

/-!
# Numbers and moments

Integers have 64 bits and a sign, in one of four bases; digits may be grouped
with single underscores between them. Of reals and moments nothing is kept but
that they are well formed.
-/

namespace Parley
namespace Toml

/-!
# Digits
-/

def readDigits (isDigit : Char → Bool) (seen : List Char) : List Char → Read (List Char)
  | '_' :: c :: rest =>
    if isDigit c && !seen.isEmpty then readDigits isDigit (c :: seen) rest else none
  | c :: rest =>
    if isDigit c then readDigits isDigit (c :: seen) rest
    else if c == '_' || seen.isEmpty then none
    else some (seen.reverse, c :: rest)
  | [] => if seen.isEmpty then none else some (seen.reverse, [])

def readWhole : List Char → Read (List Char)
  | '0' :: rest => some (['0'], rest)
  | cs => readDigits Text.isAsciiDigit [] cs

def readSign : List Char → Bool × List Char
  | '-' :: rest => (true, rest)
  | '+' :: rest => (false, rest)
  | cs => (false, cs)

def valueIn (base : Nat) (digits : List Char) : Nat :=
  digits.foldl (fun n c => base * n + (Text.Hex.value? c).getD 0) 0

/-!
# Integers
-/

def inRange? (n : Int) : Option Item :=
  if -9223372036854775808 ≤ n && n ≤ 9223372036854775807 then some (.integer n) else none

def readBased (base : Nat) (cs : List Char) : Read Item :=
  let isDigit c := match Text.Hex.value? c with
    | some d => decide (d < base)
    | none => false
  match readDigits isDigit [] cs with
  | none => none
  | some (digits, rest) => (inRange? (valueIn base digits)).map fun item => (item, rest)

def readInteger : List Char → Read Item
  | '0' :: 'x' :: rest => readBased 16 rest
  | '0' :: 'o' :: rest => readBased 8 rest
  | '0' :: 'b' :: rest => readBased 2 rest
  | cs =>
    let (negative, cs) := readSign cs
    match readWhole cs with
    | none => none
    | some (digits, rest) =>
      let n : Int := valueIn 10 digits
      (inRange? (if negative then -n else n)).map fun item => (item, rest)

/-!
# Reals
-/

def readPower : List Char → Option (Read Int)
  | c :: rest =>
    if c == 'e' || c == 'E' then
      let (negative, rest) := readSign rest
      some ((readDigits Text.isAsciiDigit [] rest).map fun (digits, rest) =>
        let n : Int := valueIn 10 digits
        (if negative then -n else n, rest))
    else none
  | [] => none

/-- A real that overflows upward is refused. -/
def realOf? (negative : Bool) (digits : List Char) (exponent : Int) : Option Item :=
  match Floating.ofDecimal .binary64 negative (valueIn 10 digits) exponent with
  | .infinite false => none
  | _ => some .real

/-- What follows the whole part of a real; none if nothing makes it one, and some failure if what
does is broken. -/
def readRealAfter (negative : Bool) (whole : List Char) (cs : List Char) : Option (Read Item) :=
  let finish (digits : List Char) (places : Nat) (power : Int) (rest : List Char) : Read Item :=
    (realOf? negative digits (power - places)).map fun item => (item, rest)
  match cs with
  | '.' :: rest =>
    some (match readDigits Text.isAsciiDigit [] rest with
      | none => none
      | some (places, rest) =>
        match readPower rest with
        | none => finish (whole ++ places) places.length 0 rest
        | some none => none
        | some (some (power, rest)) => finish (whole ++ places) places.length power rest)
  | cs =>
    match readPower cs with
    | none => none
    | some none => some none
    | some (some (power, rest)) => some (finish whole 0 power rest)

def readSpecial (cs : List Char) : Read Item :=
  match (readSign cs).2 with
  | 'i' :: 'n' :: 'f' :: rest => some (.real, rest)
  | 'n' :: 'a' :: 'n' :: rest => some (.real, rest)
  | _ => none

def readNumber (cs : List Char) : Read Item :=
  match readSpecial cs with
  | some r => some r
  | none =>
    let (negative, unsigned) := readSign cs
    match readWhole unsigned with
    | none => readInteger cs
    | some (whole, rest) =>
      match readRealAfter negative whole rest with
      | some result => result
      | none => readInteger cs

/-!
# Moments
-/

def readFixed (count : Nat) (cs : List Char) : Read Nat :=
  let digits := cs.take count
  if digits.length = count && digits.all Text.isAsciiDigit then
    some (valueIn 10 digits, cs.drop count)
  else none

def readFixedIn (least most : Nat) (cs : List Char) : Read Nat :=
  (readFixed 2 cs).filter fun r => least ≤ r.1 && r.1 ≤ most

def daysIn (year month : Nat) : Nat :=
  if month = 2 then
    if year % 4 = 0 && (year % 100 != 0 || year % 400 = 0) then 29 else 28
  else if [4, 6, 9, 11].contains month then 30
  else 31

/-- What is read here: something else, a broken moment, or a moment. -/
inductive Attempt where
  | otherwise
  | broken
  | found (rest : List Char)

def readDate (cs : List Char) : Attempt :=
  match readFixed 4 cs with
  | some (year, '-' :: rest) =>
    match readFixedIn 1 12 rest with
    | some (month, '-' :: rest) =>
      match readFixedIn 1 (daysIn year month) rest with
      | some (_, rest) => .found rest
      | none => .broken
    | _ => .broken
  | _ => .otherwise

def skipFraction : List Char → List Char
  | '.' :: rest =>
    let after := rest.dropWhile Text.isAsciiDigit
    if after.length < rest.length then after else '.' :: rest
  | cs => cs

def readTime (cs : List Char) : Attempt :=
  match readFixedIn 0 23 cs with
  | some (_, ':' :: rest) =>
    match readFixedIn 0 59 rest with
    | some (_, ':' :: rest) =>
      match readFixedIn 0 60 rest with
      | some (_, rest) => .found (skipFraction rest)
      | none => .broken
    | _ => .broken
  | _ => .otherwise

def readOffset (cs : List Char) : Attempt :=
  match cs with
  | [] => .otherwise
  | c :: rest =>
    if c == 'Z' || c == 'z' then .found rest
    else if c == '+' || c == '-' then
      match readFixedIn 0 23 rest with
      | some (_, ':' :: rest) =>
        match readFixedIn 0 59 rest with
        | some (_, rest) => .found rest
        | none => .broken
      | _ => .broken
    else .otherwise

def readTimeOfDate (cs : List Char) : Attempt :=
  match cs with
  | [] => .found []
  | c :: rest =>
    if c == 'T' || c == 't' || c == ' ' then
      match readTime rest with
      | .otherwise => .found cs
      | .broken => .broken
      | .found rest =>
        match readOffset rest with
        | .otherwise => .found rest
        | attempt => attempt
    else .found cs

def readMoment (cs : List Char) : Attempt :=
  match readDate cs with
  | .otherwise => readTime cs
  | .broken => .broken
  | .found rest => readTimeOfDate rest

/-!
# Scalars
-/

def afterWord? (word cs : List Char) : Option (List Char) :=
  if cs.take word.length = word then some (cs.drop word.length) else none

def readScalar (cs : List Char) : Read Item :=
  match cs with
  | [] => none
  | c :: _ =>
    if c == '"' || c == '\'' then (readQuoted cs).map fun (s, rest) => (.text s, rest)
    else if c == 't' then (afterWord? "true".toList cs).map fun rest => (.flag true, rest)
    else if c == 'f' then (afterWord? "false".toList cs).map fun rest => (.flag false, rest)
    else if Text.isAsciiDigit c then
      match readMoment cs with
      | .otherwise => readNumber cs
      | .broken => none
      | .found rest => some (.moment, rest)
    else readNumber cs

end Toml
end Parley
