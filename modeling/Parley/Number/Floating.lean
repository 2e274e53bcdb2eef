/-!
# Binary floating point, exactly

A finite datum is a sign and a magnitude `mantissa * 2 ^ exponent`. A format
says how many bits a mantissa has, how small the exponent may get, and from
which power of two on a magnitude is infinite. Rounding is to nearest, ties to
the even mantissa; nothing is rounded anywhere else.
-/

namespace Parley

/-- A binary format: mantissa bits, exponent of the least unit, bits of the overflow bound. -/
structure Format where
  precision : Nat
  least : Int
  limit : Nat

namespace Format

def binary32 : Format := ⟨24, -149, 128⟩

def binary64 : Format := ⟨53, -1074, 1024⟩

end Format

inductive Floating where
  | finite (negative : Bool) (mantissa : Nat) (exponent : Int)
  | infinite (negative : Bool)
  | nan
  deriving DecidableEq, Repr

namespace Floating

/-!
# Powers with an integer exponent, as two natural factors
-/

/-- `b ^ k` when `k` is not negative, one otherwise. -/
def up (b : Nat) (k : Int) : Nat :=
  Nat.pow b k.toNat

/-- `b ^ (-k)` when `k` is negative, one otherwise. -/
def down (b : Nat) (k : Int) : Nat :=
  Nat.pow b (-k).toNat

/-!
# Decoding the interchange format
-/

def ofBits64 (bits : Nat) : Floating :=
  let negative := decide (bits / 9223372036854775808 % 2 = 1)
  let field : Nat := bits / 4503599627370496 % 2048
  let fraction := bits % 4503599627370496
  if field = 2047 then
    if fraction = 0 then .infinite negative else .nan
  else if field = 0 then .finite negative fraction (-1074)
  else .finite negative (4503599627370496 + fraction) ((field : Int) - 1075)

def bitsOfBytes (bytes : List UInt8) : Nat :=
  bytes.foldl (fun n b => n * 256 + b.toNat) 0

def isFinite : Floating → Bool
  | .finite .. => true
  | _ => false

def isZero : Floating → Bool
  | .finite _ 0 _ => true
  | _ => false

/-- The integer that a finite datum denotes, when it denotes one. -/
def toInt? : Floating → Option Int
  | .finite negative m q =>
    if m % (down 2 q) = 0 then
      let n : Int := (m / down 2 q * up 2 q : Nat)
      some (if negative then -n else n)
    else none
  | _ => none

/-!
# Rounding
-/

def divNearest (num den : Nat) : Nat :=
  let q := num / den
  let r := num % den
  if 2 * r < den then q
  else if 2 * r > den then q + 1
  else if q % 2 = 0 then q else q + 1

def binaryExponent (num den : Nat) : Int :=
  let guess : Int := (Nat.log2 num : Int) - Nat.log2 den
  if den * up 2 guess ≤ num * down 2 guess then guess else guess - 1

def round (f : Format) (negative : Bool) (num den : Nat) : Floating :=
  if num = 0 then .finite negative 0 f.least
  else
    let q := max (binaryExponent num den - (f.precision - 1)) f.least
    let m := divNearest (num * down 2 q) (den * up 2 q)
    let (m, q) := if m = Nat.pow 2 f.precision then (Nat.pow 2 (f.precision - 1), q + 1) else (m, q)
    if q + f.precision > f.limit then .infinite negative else .finite negative m q

def ofNat (f : Format) (n : Nat) : Floating :=
  round f false n 1

def negate : Floating → Floating
  | .finite s m q => .finite (!s) m q
  | .infinite s => .infinite (!s)
  | .nan => .nan

def times (f : Format) : Floating → Floating → Floating
  | .finite s m q, .finite t n r =>
    round f (s != t) (m * n * up 2 (q + r)) (down 2 (q + r))
  | .nan, _ | _, .nan => .nan
  | .infinite s, .finite t n _ => if n = 0 then .nan else .infinite (s != t)
  | .finite s m _, .infinite t => if m = 0 then .nan else .infinite (s != t)
  | .infinite s, .infinite t => .infinite (s != t)

def dividedBy (f : Format) : Floating → Floating → Floating
  | .finite s m q, .finite t n r =>
    if n = 0 then .nan
    else round f (s != t) (m * up 2 (q - r)) (n * down 2 (q - r))
  | .infinite s, .finite t _ _ => .infinite (s != t)
  | _, _ => .nan

def ofDecimal (f : Format) (negative : Bool) (digits : Nat) (exponent : Int) : Floating :=
  let width : Int := exponent + (Nat.toDigits 10 digits).length
  if digits = 0 || width < f.least - 1 then .finite negative 0 f.least
  else if width > f.limit then .infinite negative
  else round f negative (digits * up 10 exponent) (down 10 exponent)

/-!
# Order

A NaN is neither less than, equal to nor greater than anything.
-/

/-- The finite datum as a multiple of `2 ^ base`, for a base not above its exponent. -/
def scaled (negative : Bool) (m : Nat) (q base : Int) : Int :=
  let n : Int := m * up 2 (q - base)
  if negative then -n else n

def lt : Floating → Floating → Bool
  | .finite s m q, .finite t n r =>
    let base := min q r
    scaled s m q base < scaled t n r base
  | .finite .., .infinite t => !t
  | .infinite s, .finite .. => s
  | .infinite s, .infinite t => s && !t
  | _, _ => false

def le (x y : Floating) : Bool :=
  match x, y with
  | .nan, _ | _, .nan => false
  | _, _ => !lt y x

def zero (f : Format) : Floating :=
  .finite false 0 f.least

def one (f : Format) : Floating :=
  ofNat f 1

end Floating
end Parley
