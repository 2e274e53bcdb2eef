import Parley.Json.Token
import Parley.Json.Value

/-!
# The value of a written number

A number without point and exponent is an integer when it fits in 64 bits, with
a sign in 64 bits of two's complement. Every other number is a binary64 datum:
its leading digits that fit in 64 bits, taken as one integer and scaled by a
power of ten in one rounded multiplication or division. A magnitude that comes
out infinite has no value; one that comes out zero is zero.
-/

namespace Parley
namespace Json
namespace Literal

def wordBound : Nat :=
  18446744073709551616

/-- Appends digits while the number stays below the bound; the digits left over. -/
def absorb (n : Nat) : List Char → Nat × List Char
  | [] => (n, [])
  | c :: rest =>
    let next := n * 10 + Text.digitValue c
    if next < wordBound then absorb next rest else (n, c :: rest)

def powerOfTen (k : Nat) : Floating :=
  Floating.ofNat .binary64 (Nat.pow 10 k)

def scaleUp (x : Floating) (k : Nat) : Option Floating :=
  if k ≤ 308 then
    let y := x.times .binary64 (powerOfTen k)
    if y.isFinite then some y else none
  else if x.isZero then some x
  else none

def scaleDown (x : Floating) (k : Nat) : Floating :=
  if k ≤ 308 then x.dividedBy .binary64 (powerOfTen k)
  else if x.isZero then x
  else scaleDown (x.dividedBy .binary64 (powerOfTen 308)) (k - 308)
termination_by k

def scale (x : Floating) (k : Int) : Option Floating :=
  if 0 ≤ k then scaleUp x k.toNat else some (scaleDown x (-k).toNat)

def exponentValue? (ds : List Char) : Option Nat :=
  let n := ds.foldl (fun n c => n * 10 + Text.digitValue c) 0
  if n < 2147483648 then some n else none

def magnitude? (significand : Nat) (shift : Int) (exponent : Option (Bool × List Char)) :
    Option Floating :=
  let x := Floating.ofNat .binary64 significand
  match exponent with
  | none => scale x shift
  | some (negative, ds) =>
    match exponentValue? ds with
    | some n => scale x (if negative then shift - n else shift + n)
    | none =>
      if significand ≠ 0 ∧ ¬negative then none else some (Floating.zero .binary64)

def real? (l : Literal) : Option Floating :=
  let (n, dropped) := absorb 0 l.whole
  let (m, left) := absorb n l.fraction
  let shift : Int := dropped.length - (l.fraction.length - left.length : Nat)
  (magnitude? m shift l.exponent).map fun x => if l.negative then x.negate else x

def isPlain (l : Literal) : Bool :=
  l.fraction.isEmpty && l.exponent.isNone

/-- The integer that a plain literal is kept as; a negative zero is none. -/
def int? (l : Literal) : Option Int :=
  if l.isPlain then
    match absorb 0 l.whole with
    | (n, []) =>
      if l.negative then
        if 0 < n ∧ n ≤ 9223372036854775808 then some (-(n : Int)) else none
      else some n
    | _ => none
  else none

def number? (l : Literal) : Option Number :=
  match l.int? with
  | some n => some (.int n)
  | none => l.real?.map .real

end Literal
end Json
end Parley
