import Mathlib.Tactic.GCongr
import Mathlib.Tactic.Linarith
import Mathlib.Tactic.Ring
import Parley.Number.Shortest
import Parley.Proofs.Number.Power
import Parley.Proofs.Text.Digit

/-!
# Decimal grids

On the grid of seventeen digits one of the two neighbours of a datum rounds back to it, so
the shortest decimal of a datum of fifty-three bits is one that rounds back to it, and has
no more digits than that grid.
-/

namespace Parley
namespace Floating

def Decimal.value (d : Decimal) : ℚ :=
  d.digits * 10 ^ d.exponent

/-!
# The leading digit
-/

variable {num den : Nat}

theorem zpow_decimalExponent_le (hnum : num ≠ 0) (hden : den ≠ 0) :
    (10 : ℚ) ^ decimalExponent num den ≤ num / den := by
  have hpos : (0 : ℚ) < den := by positivity
  rw [decimalExponent]
  split
  · rename_i hle
    have hwhole : 0 < num / den := Nat.div_pos hle (Nat.pos_of_ne_zero hden)
    have hdigits := Text.pow_length_digits_le hwhole
    have hexp : ((Text.digits (num / den)).length : ℤ) - 1 =
        ((Text.digits (num / den)).length - 1 : Nat) := by
      have := Text.length_digits_pos (num / den)
      omega
    rw [hexp, zpow_natCast, le_div_iff₀ hpos]
    calc ((10 : ℚ) ^ ((Text.digits (num / den)).length - 1)) * den
        ≤ (num / den : Nat) * den := by
          gcongr
          exact_mod_cast hdigits
      _ ≤ num := by exact_mod_cast Nat.div_mul_le_self num den
  · generalize hc : (den + num - 1) / num = c
    have hup : den ≤ num * c := by
      have := Nat.lt_mul_div_succ (den + num - 1) (Nat.pos_of_ne_zero hnum)
      rw [hc, Nat.mul_succ] at this
      omega
    have hpow : c ≤ 10 ^ (Text.digits (c - 1)).length := by
      have := Text.lt_pow_length_digits (c - 1)
      omega
    rw [zpow_neg, zpow_natCast, inv_eq_one_div, div_le_div_iff₀ (by positivity) hpos, one_mul]
    calc (den : ℚ) ≤ num * c := by exact_mod_cast hup
      _ ≤ num * 10 ^ (Text.digits (c - 1)).length := by
          gcongr
          exact_mod_cast hpow

theorem lt_zpow_decimalExponent (hnum : num ≠ 0) (hden : den ≠ 0) :
    (num / den : ℚ) < 10 ^ (decimalExponent num den + 1) := by
  have hpos : (0 : ℚ) < den := by positivity
  rw [decimalExponent]
  split
  · have hdigits := Text.lt_pow_length_digits (num / den)
    rw [sub_add_cancel, zpow_natCast, div_lt_iff₀ hpos]
    have hnext : num < (num / den + 1) * den := by
      rw [Nat.mul_comm]
      exact Nat.lt_mul_div_succ num (Nat.pos_of_ne_zero hden)
    calc (num : ℚ) < (num / den + 1 : Nat) * den := by exact_mod_cast hnext
      _ ≤ 10 ^ (Text.digits (num / den)).length * den := by
          gcongr
          exact_mod_cast hdigits
  · rename_i hlt
    generalize hc : (den + num - 1) / num = c
    have hdown : num * (c - 1) < den := by
      have hle := Nat.mul_div_le (den + num - 1) num
      rw [hc] at hle
      rw [Nat.mul_sub, Nat.mul_one]
      omega
    have hc1 : 0 < c - 1 := by
      rw [← hc, Nat.sub_pos_iff_lt, Nat.lt_div_iff_mul_lt (Nat.pos_of_ne_zero hnum)]
      omega
    have hdigits := Text.pow_length_digits_le hc1
    have hexp : -((Text.digits (c - 1)).length : ℤ) + 1 =
        -((Text.digits (c - 1)).length - 1 : Nat) := by
      have := Text.length_digits_pos (c - 1)
      omega
    rw [hexp, zpow_neg, zpow_natCast, inv_eq_one_div, div_lt_div_iff₀ hpos (by positivity),
      one_mul]
    calc (num : ℚ) * 10 ^ ((Text.digits (c - 1)).length - 1) ≤ num * (c - 1 : Nat) := by
          gcongr
          exact_mod_cast hdigits
      _ < den := by exact_mod_cast hdown

/-!
# Comparing decimals with data
-/

theorem compareDecimal_eq (a : Nat) (e : Int) (b : Nat) (k : Int) :
    compareDecimal a e b k = compare ((a : ℚ) * 10 ^ e) (b * 2 ^ k) := by
  have hdown10 : (0 : ℚ) < down 10 e := Nat.cast_pos.mpr (down_pos (by decide) e)
  have hdown2 : (0 : ℚ) < down 2 k := Nat.cast_pos.mpr (down_pos (by decide) k)
  have hlt : (a : ℚ) * 10 ^ e < b * 2 ^ k ↔
      a * up 10 e * down 2 k < b * up 2 k * down 10 e := by
    rw [ten_zpow_eq_div, two_zpow_eq_div, mul_div_assoc', mul_div_assoc',
      div_lt_div_iff₀ hdown10 hdown2]
    exact_mod_cast Iff.rfl
  have hgt : (b : ℚ) * 2 ^ k < a * 10 ^ e ↔
      b * up 2 k * down 10 e < a * up 10 e * down 2 k := by
    rw [ten_zpow_eq_div, two_zpow_eq_div, mul_div_assoc', mul_div_assoc',
      div_lt_div_iff₀ hdown2 hdown10]
    exact_mod_cast Iff.rfl
  rw [compareDecimal]
  rcases lt_trichotomy ((a : ℚ) * 10 ^ e) (b * 2 ^ k) with h | h | h
  · rw [compare_lt_iff_lt.mpr h]
    exact compare_lt_iff_lt.mpr (hlt.mp h)
  · rw [compare_eq_iff_eq.mpr h]
    refine compare_eq_iff_eq.mpr (le_antisymm ?_ ?_)
    · exact not_lt.mp fun hlarge => absurd (hgt.mpr hlarge) (not_lt.mpr h.le)
    · exact not_lt.mp fun hsmall => absurd (hlt.mpr hsmall) (not_lt.mpr h.ge)
  · rw [compare_gt_iff_gt.mpr h]
    exact compare_gt_iff_gt.mpr (hgt.mp h)

theorem le_of_roundsTo {f : Format} {m a : Nat} {q e : Int} (h : roundsTo f m q a e = true) :
    (a : ℚ) * 10 ^ e ≤ (4 * m + 2 : Nat) * 2 ^ (q - 2) := by
  unfold roundsTo at h
  extract_lets narrow low high at h
  have hhigh : high ≠ .gt := by
    intro hgt
    rw [hgt] at h
    split at h <;> simp at h
  rw [ne_eq, show high = _ from compareDecimal_eq _ _ _ _, compare_gt_iff_gt, not_lt] at hhigh
  exact hhigh

/-- How far the lower midpoint is below the datum, in quarters of the last bit. -/
def lowerGap (f : Format) (m : Nat) (q : Int) : Nat :=
  if m = Nat.pow 2 (f.precision - 1) && f.least < q then 1 else 2

theorem lowerGap_eq (f : Format) (m : Nat) (q : Int) :
    lowerGap f m q = 1 ∧ m = 2 ^ (f.precision - 1) ∨ lowerGap f m q = 2 := by
  rw [lowerGap]
  split
  · rename_i hnarrow
    rw [Bool.and_eq_true, decide_eq_true_eq] at hnarrow
    exact .inl ⟨rfl, hnarrow.1⟩
  · exact .inr rfl

theorem roundsTo_of_between {f : Format} {m a : Nat} {q e : Int}
    (hlow : (4 * m - lowerGap f m q : Nat) * (2 : ℚ) ^ (q - 2) < a * 10 ^ e)
    (hhigh : (a : ℚ) * 10 ^ e < (4 * m + 2 : Nat) * 2 ^ (q - 2)) :
    roundsTo f m q a e = true := by
  unfold roundsTo
  extract_lets narrow low high
  have hgt : low = .gt := by
    rw [show low = _ from compareDecimal_eq _ _ _ _, compare_gt_iff_gt]
    exact hlow
  have hlt : high = .lt := by
    rw [show high = _ from compareDecimal_eq _ _ _ _, compare_lt_iff_lt]
    exact hhigh
  rw [hgt, hlt]
  split <;> rfl

/-!
# Neighbours on a grid
-/

def gridExponent (m : Nat) (q : Int) (n : Nat) : Int :=
  decimalExponent (m * up 2 q) (down 2 q) - (n - 1)

def gridDigits (m : Nat) (q : Int) (n : Nat) : Nat :=
  m * up 2 q * down 10 (gridExponent m q n) / (down 2 q * up 10 (gridExponent m q n))

theorem mul_zpow_eq_div (m : Nat) (q : Int) :
    (m : ℚ) * 2 ^ q = (m * up 2 q : Nat) / (down 2 q : Nat) := by
  rw [two_zpow_eq_div, mul_div_assoc', Nat.cast_mul]

theorem mul_zpow_eq_quarters (m : Nat) (q : Int) :
    (m : ℚ) * 2 ^ q = 4 * m * 2 ^ (q - 2) := by
  have hpow : (2 : ℚ) ^ q = 4 * 2 ^ (q - 2) := by
    rw [zpow_sub₀ (by norm_num)]
    ring
  rw [hpow]
  ring

section

variable {f : Format} {m : Nat} {q : Int} {n : Nat}

theorem gridDigits_mul_le (m : Nat) (q : Int) (n : Nat) :
    (gridDigits m q n : ℚ) * 10 ^ gridExponent m q n ≤ m * 2 ^ q := by
  have hdown10 : (0 : ℚ) < down 10 (gridExponent m q n) :=
    Nat.cast_pos.mpr (down_pos (by decide) _)
  have hdown2 : (0 : ℚ) < down 2 q := Nat.cast_pos.mpr (down_pos (by decide) q)
  rw [ten_zpow_eq_div, mul_zpow_eq_div, mul_div_assoc', div_le_div_iff₀ hdown10 hdown2]
  have hle := Nat.div_mul_le_self (m * up 2 q * down 10 (gridExponent m q n))
    (down 2 q * up 10 (gridExponent m q n))
  rw [gridDigits, mul_assoc, mul_comm (up 10 _ : ℚ)]
  exact_mod_cast hle

theorem lt_gridDigits_succ_mul (m : Nat) (q : Int) (n : Nat) :
    (m : ℚ) * 2 ^ q < (gridDigits m q n + 1 : Nat) * 10 ^ gridExponent m q n := by
  have hdown10 : (0 : ℚ) < down 10 (gridExponent m q n) :=
    Nat.cast_pos.mpr (down_pos (by decide) _)
  have hdown2 : (0 : ℚ) < down 2 q := Nat.cast_pos.mpr (down_pos (by decide) q)
  have hunit : 0 < down 2 q * up 10 (gridExponent m q n) :=
    Nat.mul_pos (down_pos (by decide) q) (up_pos (by decide) _)
  have hlt := Nat.lt_mul_div_succ (m * up 2 q * down 10 (gridExponent m q n)) hunit
  rw [ten_zpow_eq_div, mul_zpow_eq_div, mul_div_assoc', div_lt_div_iff₀ hdown2 hdown10]
  rw [gridDigits, mul_assoc (Nat.cast _), mul_comm (up 10 _ : ℚ), mul_comm (Nat.cast (_ / _ + 1))]
  exact_mod_cast hlt

theorem gridDigits_lt (hm : m ≠ 0) : gridDigits m q n < 10 ^ n := by
  have hnum : m * up 2 q ≠ 0 := Nat.mul_ne_zero hm (up_pos (by decide) q).ne'
  have hden : down 2 q ≠ 0 := (down_pos (by decide) q).ne'
  have hlt := (gridDigits_mul_le m q n).trans_lt
    ((mul_zpow_eq_div m q).trans_lt (lt_zpow_decimalExponent hnum hden))
  have hexp : decimalExponent (m * up 2 q) (down 2 q) + 1 = n + gridExponent m q n := by
    rw [gridExponent]
    ring
  rw [hexp, zpow_add₀ (by norm_num), zpow_natCast] at hlt
  have hcast : (gridDigits m q n : ℚ) < 10 ^ n := lt_of_mul_lt_mul_right hlt (by positivity)
  exact_mod_cast hcast

theorem zpow_gridExponent_mul_le (hm : m ≠ 0) (hn : 0 < n) :
    (10 : ℚ) ^ gridExponent m q n * 10 ^ (n - 1) ≤ m * 2 ^ q := by
  have hnum : m * up 2 q ≠ 0 := Nat.mul_ne_zero hm (up_pos (by decide) q).ne'
  have hden : down 2 q ≠ 0 := (down_pos (by decide) q).ne'
  have hexp : gridExponent m q n + (n - 1 : Nat) = decimalExponent (m * up 2 q) (down 2 q) := by
    rw [gridExponent]
    omega
  rw [← zpow_natCast, ← zpow_add₀ (by norm_num), hexp, mul_zpow_eq_div]
  exact zpow_decimalExponent_le hnum hden

theorem onGrid_eq_some {d : Decimal} (h : onGrid f m q n = some d) :
    (d = ⟨gridDigits m q n, gridExponent m q n⟩ ∨
      d = ⟨gridDigits m q n + 1, gridExponent m q n⟩) ∧
      roundsTo f m q d.digits d.exponent = true := by
  unfold onGrid at h
  extract_lets num den e a at h
  split at h
  · rename_i hlow _
    cases h
    exact ⟨.inl rfl, hlow⟩
  · rename_i _ hhigh
    cases h
    exact ⟨.inr rfl, hhigh⟩
  · cases h
  · rename_i hlow hhigh
    split at h
    · cases h
      exact ⟨.inr rfl, hhigh⟩
    · cases h
      exact ⟨.inl rfl, hlow⟩
    · cases h
      split
      · exact ⟨.inl rfl, hlow⟩
      · exact ⟨.inr rfl, hhigh⟩

theorem not_roundsTo_of_onGrid_eq_none (h : onGrid f m q n = none) :
    roundsTo f m q (gridDigits m q n) (gridExponent m q n) = false ∧
      roundsTo f m q (gridDigits m q n + 1) (gridExponent m q n) = false := by
  unfold onGrid at h
  extract_lets num den e a at h
  split at h
  · cases h
  · cases h
  · rename_i hlow hhigh
    exact ⟨hlow, hhigh⟩
  · split at h <;> cases h

/-- Where no neighbour rounds to the datum, a unit of the grid is as wide as all that does. -/
theorem le_zpow_gridExponent (hm : m ≠ 0) (h : onGrid f m q n = none) :
    (2 + lowerGap f m q : ℚ) * 2 ^ (q - 2) ≤ 10 ^ gridExponent m q n := by
  obtain ⟨hnotLow, hnotHigh⟩ := not_roundsTo_of_onGrid_eq_none h
  have hlow := gridDigits_mul_le m q n
  have hhigh := lt_gridDigits_succ_mul m q n
  generalize gridDigits m q n = a at *
  generalize gridExponent m q n = e at *
  have hunit : (0 : ℚ) < 2 ^ (q - 2) := by positivity
  have hgap : lowerGap f m q ≤ 4 * m := by
    rcases lowerGap_eq f m q with ⟨hgap, -⟩ | hgap <;> omega
  have hbelow : (a : ℚ) * 10 ^ e ≤ (4 * m - lowerGap f m q : Nat) * 2 ^ (q - 2) := by
    by_contra hlt
    rw [roundsTo_of_between (not_le.mp hlt) (hlow.trans_lt ?_)] at hnotLow
    · cases hnotLow
    · rw [mul_zpow_eq_quarters m q]
      push_cast
      gcongr
      linarith
  have habove : (4 * m + 2 : Nat) * (2 : ℚ) ^ (q - 2) ≤ (a + 1 : Nat) * 10 ^ e := by
    by_contra hlt
    rw [roundsTo_of_between (lt_of_le_of_lt ?_ hhigh) (not_le.mp hlt)] at hnotHigh
    · cases hnotHigh
    · rw [mul_zpow_eq_quarters m q]
      gcongr
      exact_mod_cast Nat.sub_le _ _
  rw [Nat.cast_sub hgap] at hbelow
  push_cast at hbelow habove
  linarith

end

/-- The grid of seventeen digits is finer than the data of fifty-three bits. -/
theorem isSome_onGrid_seventeen {m : Nat} (hm : m ≠ 0) (hbits : m < 2 ^ 53) (q : Int) :
    (onGrid .binary64 m q 17).isSome = true := by
  by_contra hnone
  rw [Bool.not_eq_true, Option.isSome_eq_false_iff, Option.isNone_iff_eq_none] at hnone
  have hwide := le_zpow_gridExponent hm hnone
  have hfine := zpow_gridExponent_mul_le (q := q) hm (n := 17) (by decide)
  have hunit : (0 : ℚ) < 2 ^ (q - 2) := by positivity
  have hbound : (2 + lowerGap .binary64 m q : ℚ) * 10 ^ 16 ≤ 4 * m := by
    refine le_of_mul_le_mul_right ?_ hunit
    rw [mul_zpow_eq_quarters] at hfine
    calc (2 + lowerGap .binary64 m q : ℚ) * 10 ^ 16 * 2 ^ (q - 2)
        = (2 + lowerGap .binary64 m q) * 2 ^ (q - 2) * 10 ^ 16 := by ring
      _ ≤ 10 ^ gridExponent m q 17 * 10 ^ 16 := by gcongr
      _ ≤ 4 * m * 2 ^ (q - 2) := hfine
  have hbound' : (2 + lowerGap .binary64 m q) * 10 ^ 16 ≤ 4 * m := by exact_mod_cast hbound
  rcases lowerGap_eq .binary64 m q with ⟨hgap, hpower⟩ | hgap
  · have hm' : m = 2 ^ 52 := hpower
    omega
  · omega

/-!
# The shortest decimal
-/

theorem value_strip (fuel : Nat) (d : Decimal) : (strip fuel d).value = d.value := by
  induction fuel generalizing d with
  | zero => rfl
  | succ fuel ih =>
      rw [strip]
      split
      · rename_i hd
        obtain ⟨k, hk⟩ := Nat.dvd_of_mod_eq_zero hd.2
        rw [ih, Decimal.value, Decimal.value, hk, Nat.mul_div_cancel_left k (by decide),
          zpow_add_one₀ (by norm_num)]
        push_cast
        ring
      · rfl

theorem digits_strip_le (fuel : Nat) (d : Decimal) : (strip fuel d).digits ≤ d.digits := by
  induction fuel generalizing d with
  | zero => exact Nat.le_refl _
  | succ fuel ih =>
      rw [strip]
      split
      · exact (ih _).trans (Nat.div_le_self _ _)
      · exact Nat.le_refl _

/-- The shortest decimal of a datum of fifty-three bits has seventeen digits at most, and is half a
unit above the datum at most. -/
theorem shortest_le {m : Nat} (hm : m ≠ 0) (hbits : m < 2 ^ 53) (q : Int) :
    (shortest .binary64 m q).digits ≤ 10 ^ 17 ∧
      (shortest .binary64 m q).value ≤ (4 * m + 2 : Nat) * 2 ^ (q - 2) := by
  rw [shortest, if_neg hm]
  split
  · rename_i d hd
    obtain ⟨n, hn, hgrid⟩ := List.exists_of_findSome?_eq_some hd
    obtain ⟨hneighbour, hrounds⟩ := onGrid_eq_some hgrid
    have hlt : gridDigits m q (n + 1) < 10 ^ (n + 1) := gridDigits_lt hm
    have hpow : 10 ^ (n + 1) ≤ 10 ^ 17 :=
      Nat.pow_le_pow_right (by decide) (List.mem_range.mp hn)
    have hdigits : d.digits ≤ 10 ^ 17 := by
      rcases hneighbour with rfl | rfl
      · exact hlt.le.trans hpow
      · exact (Nat.succ_le_of_lt hlt).trans hpow
    refine ⟨(digits_strip_le 17 d).trans hdigits, ?_⟩
    rw [value_strip]
    exact le_of_roundsTo hrounds
  · rename_i hnone
    have hlast := List.findSome?_eq_none_iff.mp hnone 16 (by decide)
    have hsome := isSome_onGrid_seventeen hm hbits q
    rw [hlast] at hsome
    cases hsome

end Floating
end Parley
