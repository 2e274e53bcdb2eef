import Parley.Number.Floating
import Parley.Text.Digit

/-!
# Shortest decimals

The fewest digits that round back to a finite datum, and of those the nearest
to it. A decimal grid has a point in the interval of numbers that round to the
datum exactly when one of the datum's two neighbours on that grid lies in it,
so the two neighbours on the coarsest such grid are all that is looked at.
-/

namespace Parley
namespace Floating

/-- A decimal: its digits as a number, and the power of ten of the last digit. -/
structure Decimal where
  digits : Nat
  exponent : Int
  deriving DecidableEq, Repr

def compareDecimal (a : Nat) (e : Int) (b : Nat) (k : Int) : Ordering :=
  compare (a * up 10 e * down 2 k) (b * up 2 k * down 10 e)

/-- Whether `a * 10 ^ e` rounds to the datum: between the two midpoints, which count
when the mantissa is even. Below a power of two the gap is half as wide. -/
def roundsTo (f : Format) (m : Nat) (q : Int) (a : Nat) (e : Int) : Bool :=
  let narrow := m = Nat.pow 2 (f.precision - 1) && f.least < q
  let low := compareDecimal a e (4 * m - (if narrow then 1 else 2)) (q - 2)
  let high := compareDecimal a e (4 * m + 2) (q - 2)
  if m % 2 = 0 then low != .lt && high != .gt else low == .gt && high == .lt

def decimalExponent (num den : Nat) : Int :=
  if den ≤ num then ((Text.digits (num / den)).length : Int) - 1
  else -((Text.digits ((den + num - 1) / num - 1)).length : Int)

/-- The better neighbour of the datum on the grid of `n` digits, if one rounds back. -/
def onGrid (f : Format) (m : Nat) (q : Int) (n : Nat) : Option Decimal :=
  let num := m * up 2 q
  let den := down 2 q
  let e := decimalExponent num den - (n - 1)
  let a := num * down 10 e / (den * up 10 e)
  match roundsTo f m q a e, roundsTo f m q (a + 1) e with
  | true, false => some ⟨a, e⟩
  | false, true => some ⟨a + 1, e⟩
  | false, false => none
  | true, true =>
    match compareDecimal (2 * a + 1) e (2 * m) q with
    | .lt => some ⟨a + 1, e⟩
    | .gt => some ⟨a, e⟩
    | .eq => some ⟨if a % 2 = 0 then a else a + 1, e⟩

def strip : Nat → Decimal → Decimal
  | 0, d => d
  | fuel + 1, d =>
    if d.digits ≠ 0 ∧ d.digits % 10 = 0 then strip fuel ⟨d.digits / 10, d.exponent + 1⟩ else d

def shortest (f : Format) (m : Nat) (q : Int) : Decimal :=
  if m = 0 then ⟨0, 0⟩
  else
    match (List.range 17).findSome? fun n => onGrid f m q (n + 1) with
    | some d => strip 17 d
    | none => ⟨m, q⟩

/-!
# Written forms
-/

/-- Where positional notation begins and ends, as exponents of the leading digit. -/
structure Layout where
  positionalFrom : Int
  positionalBelow : Int

def positional (d : Decimal) : List Char :=
  let ds := Text.digits d.digits
  let lead : Int := ds.length - 1 + d.exponent
  if 0 ≤ d.exponent then ds ++ List.replicate d.exponent.toNat '0' ++ ['.', '0']
  else if 0 ≤ lead then ds.take (lead.toNat + 1) ++ '.' :: ds.drop (lead.toNat + 1)
  else '0' :: '.' :: (List.replicate ((-lead).toNat - 1) '0' ++ ds)

def scientific (d : Decimal) : List Char :=
  let ds := Text.digits d.digits
  let lead : Int := ds.length - 1 + d.exponent
  let tail := ds.drop 1
  ds.take 1 ++ (if tail.isEmpty then [] else '.' :: tail) ++
    'e' :: (if lead < 0 then '-' else '+') :: Text.digits lead.natAbs

def Layout.write (layout : Layout) (d : Decimal) : List Char :=
  let lead : Int := (Text.digits d.digits).length - 1 + d.exponent
  if layout.positionalFrom ≤ lead ∧ lead < layout.positionalBelow then positional d
  else scientific d

end Floating
end Parley
