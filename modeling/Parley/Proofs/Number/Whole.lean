import Mathlib.Data.Nat.Bitwise
import Mathlib.Tactic.FieldSimp
import Parley.Proofs.Number.Order
import Parley.Proofs.Number.Power

/-!
# Whole numbers among the data

Sixty-four bits write a number with a sign, eleven bits of exponent and fifty-two of
fraction. A datum is taken for an integer exactly if the number that its bits write is
that integer, wherever its exponent puts the point and whichever sign a zero has.
-/

namespace Parley
namespace Floating

def rational? : Floating → Option ℚ
  | finite negative m q => some (rational negative m q)
  | _ => none

/-- The number that sixty-four bits write. The exponent is biased, the fraction stands behind a
one, or behind a zero where the exponent is the least; the greatest exponent writes no number. -/
def binary64? (bits : Nat) : Option ℚ :=
  let sign : ℚ := if bits.testBit 63 then -1 else 1
  let exponent : ℕ := bits / 2 ^ 52 % 2 ^ 11
  let fraction : ℚ := (bits % 2 ^ 52 : ℕ) / 2 ^ 52
  if exponent = 2047 then none
  else if exponent = 0 then some (sign * fraction * 2 ^ (-1022 : ℤ))
  else some (sign * (1 + fraction) * 2 ^ ((exponent : ℤ) - 1023))

/-!
# Decoding
-/

theorem rational_subnormal (negative : Bool) (fraction : Nat) :
    rational negative fraction (-1074) =
      (if negative then -1 else 1) * (fraction / 2 ^ 52) * 2 ^ (-1022 : ℤ) := by
  have hpow : (2 : ℚ) ^ (-1022 : ℤ) = 2 ^ (52 : ℕ) * 2 ^ (-1074 : ℤ) := by
    rw [← zpow_natCast, ← zpow_add₀ (by norm_num)]
    rfl
  rw [rational, hpow]
  field_simp

theorem rational_normal (negative : Bool) (fraction : Nat) (e : ℤ) :
    rational negative (2 ^ 52 + fraction) (e - 1075) =
      (if negative then -1 else 1) * (1 + fraction / 2 ^ 52) * 2 ^ (e - 1023) := by
  have hpow : (2 : ℚ) ^ (e - 1023) = 2 ^ (52 : ℕ) * 2 ^ (e - 1075) := by
    rw [← zpow_natCast, ← zpow_add₀ (by norm_num)]
    congr 1
    push_cast
    ring
  rw [rational, hpow, Nat.cast_add, Nat.cast_pow, Nat.cast_ofNat]
  field_simp

theorem rational?_ofBits64 (bits : Nat) : (ofBits64 bits).rational? = binary64? bits := by
  have hsign : bits.testBit 63 = decide (bits / 9223372036854775808 % 2 = 1) :=
    Nat.testBit_eq_decide_div_mod_eq
  have hfields : ofBits64 bits =
      if bits / 2 ^ 52 % 2 ^ 11 = 2047 then
        if bits % 2 ^ 52 = 0 then .infinite (bits.testBit 63) else .nan
      else if bits / 2 ^ 52 % 2 ^ 11 = 0 then .finite (bits.testBit 63) (bits % 2 ^ 52) (-1074)
      else .finite (bits.testBit 63) (2 ^ 52 + bits % 2 ^ 52)
        ((bits / 2 ^ 52 % 2 ^ 11 : Nat) - 1075) := by
    rw [hsign]
    rfl
  rw [hfields]
  unfold binary64?
  generalize bits.testBit 63 = negative
  generalize bits / 2 ^ 52 % 2 ^ 11 = exponent
  generalize bits % 2 ^ 52 = fraction
  dsimp only
  split
  · split <;> rfl
  · split
    · rw [rational?, rational_subnormal]
    · rw [rational?, rational_normal]

/-!
# Integers
-/

theorem rational_eq_intCast_iff (negative : Bool) (m : Nat) (q n : Int) :
    rational negative m q = n ↔
      (if negative then -1 else 1) * (m * up 2 q : Nat) = n * (down 2 q : ℤ) := by
  have hne : (down 2 q : ℚ) ≠ 0 := Nat.cast_ne_zero.mpr (down_pos (by decide) q).ne'
  rw [rational, two_zpow_eq_div, mul_div_assoc', div_eq_iff hne, ← @Int.cast_inj ℚ]
  cases negative <;> simp

theorem down_dvd_of_rational_eq {negative : Bool} {m : Nat} {q n : Int}
    (h : rational negative m q = n) : down 2 q ∣ m := by
  rw [rational_eq_intCast_iff] at h
  have hdvd : down 2 q ∣ m * up 2 q := by
    have habs := congrArg Int.natAbs h
    rw [Int.natAbs_mul, Int.natAbs_mul, Int.natAbs_natCast, Int.natAbs_natCast] at habs
    have hsign : (if negative = true then (-1 : ℤ) else 1).natAbs = 1 := by
      cases negative <;> rfl
    rw [hsign, one_mul] at habs
    exact ⟨n.natAbs, by rw [habs, mul_comm]⟩
  rcases up_eq_one_or_down_eq_one 2 q with hup | hdown
  · rwa [hup, mul_one] at hdvd
  · rw [hdown]
    exact one_dvd m

theorem toInt?_eq_some_iff {x : Floating} {n : ℤ} :
    x.toInt? = some n ↔ x.rational? = some (n : ℚ) := by
  cases x with
  | infinite negative => simp [toInt?, rational?]
  | nan => simp [toInt?, rational?]
  | finite negative m q =>
      rw [toInt?, rational?, Option.some_inj]
      by_cases hdvd : down 2 q ∣ m
      · obtain ⟨k, rfl⟩ := hdvd
        have hne : (down 2 q : ℤ) ≠ 0 := Nat.cast_ne_zero.mpr (down_pos (by decide) q).ne'
        have hcancel : rational negative (down 2 q * k) q = n ↔
            (if negative then -1 else 1) * (k * up 2 q : Nat) = n := by
          have hleft : (if negative then -1 else 1) * ((down 2 q * k * up 2 q : ℕ) : ℤ) =
              (if negative then -1 else 1) * (k * up 2 q : ℕ) * (down 2 q : ℤ) := by
            push_cast
            ring
          rw [rational_eq_intCast_iff, hleft]
          exact mul_left_inj' hne
        rw [if_pos (Nat.mul_mod_right _ _), Nat.mul_div_cancel_left k (down_pos (by decide) q), hcancel]
        cases negative <;> simp
      · rw [if_neg fun h => hdvd (Nat.dvd_of_mod_eq_zero h)]
        exact iff_of_false (by simp) fun h => hdvd (down_dvd_of_rational_eq h)

end Floating
end Parley
