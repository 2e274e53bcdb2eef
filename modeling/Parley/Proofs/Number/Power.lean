import Mathlib.Algebra.Order.Field.Power
import Mathlib.Data.Rat.Cast.Order
import Parley.Number.Floating

/-!
# Powers as two natural factors

A power with an integer exponent is the quotient of its two factors, of which one at least
is one.
-/

namespace Parley
namespace Floating

theorem up_of_nonpos (b : Nat) {k : Int} (hk : k ≤ 0) : up b k = 1 := by
  rw [up, Int.toNat_eq_zero.mpr hk, Nat.pow_eq, pow_zero]

theorem down_of_nonneg (b : Nat) {k : Int} (hk : 0 ≤ k) : down b k = 1 := by
  rw [down, Int.toNat_eq_zero.mpr (Int.neg_nonpos_of_nonneg hk), Nat.pow_eq, pow_zero]

theorem up_eq_one_or_down_eq_one (b : Nat) (k : Int) : up b k = 1 ∨ down b k = 1 := by
  rcases Int.le_total k 0 with hk | hk
  · exact .inl (up_of_nonpos b hk)
  · exact .inr (down_of_nonneg b hk)

theorem up_pos {b : Nat} (hb : 0 < b) (k : Int) : 0 < up b k :=
  Nat.pow_pos hb

theorem down_pos {b : Nat} (hb : 0 < b) (k : Int) : 0 < down b k :=
  Nat.pow_pos hb

theorem zpow_eq_div {b : Nat} (hb : 0 < b) (k : Int) : (b : ℚ) ^ k = up b k / down b k := by
  have hne : (b : ℚ) ≠ 0 := Nat.cast_ne_zero.mpr hb.ne'
  rcases Int.le_total 0 k with hk | hk
  · obtain ⟨n, rfl⟩ := Int.eq_ofNat_of_zero_le hk
    rw [down_of_nonneg b hk, up, Int.toNat_natCast, zpow_natCast, Nat.pow_eq, Nat.cast_pow,
      Nat.cast_one, div_one]
  · obtain ⟨n, hn⟩ := Int.eq_ofNat_of_zero_le (Int.neg_nonneg_of_nonpos hk)
    have hinv : (b : ℚ) ^ k = ((b : ℚ) ^ n)⁻¹ := by
      rw [← zpow_natCast, ← hn, zpow_neg, inv_inv]
    rw [up_of_nonpos b hk, down, hn, Int.toNat_natCast, hinv, Nat.pow_eq, Nat.cast_pow,
      Nat.cast_one, one_div]

theorem two_zpow_eq_div (k : Int) : (2 : ℚ) ^ k = up 2 k / down 2 k := by
  exact_mod_cast zpow_eq_div (b := 2) (by decide) k

theorem ten_zpow_eq_div (k : Int) : (10 : ℚ) ^ k = up 10 k / down 10 k := by
  exact_mod_cast zpow_eq_div (b := 10) (by decide) k

end Floating
end Parley
