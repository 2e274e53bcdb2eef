import Mathlib.Tactic.FieldSimp
import Mathlib.Tactic.GCongr
import Mathlib.Tactic.Linarith
import Mathlib.Tactic.Positivity
import Mathlib.Tactic.Ring
import Parley.Proofs.Number.Power

/-!
# Rounding

A positive number is rounded to the nearest multiple of a unit, and the unit is the least
one unless the mantissa has all its bits. So rounding passes no number that has a mantissa
of that many bits, it errs by half a unit at most, and it is infinite only from half a unit
below the overflow bound on.
-/

namespace Parley
namespace Floating

/-!
# The nearest integer
-/

theorem divNearest_eq (num den : Nat) :
    divNearest num den = num / den ∧ 2 * (num % den) ≤ den ∨
      divNearest num den = num / den + 1 ∧ den ≤ 2 * (num % den) := by
  rw [divNearest]
  split
  · exact .inl ⟨rfl, by omega⟩
  · split
    · exact .inr ⟨rfl, by omega⟩
    · split
      · exact .inl ⟨rfl, by omega⟩
      · exact .inr ⟨rfl, by omega⟩

variable {num den k : Nat}

theorem divNearest_le (hden : 0 < den) (h : num ≤ k * den) : divNearest num den ≤ k := by
  rcases divNearest_eq num den with ⟨heq, -⟩ | ⟨heq, hrest⟩
  · rw [heq]
    exact Nat.div_le_of_le_mul (by rwa [Nat.mul_comm])
  · rw [heq, Nat.succ_le_iff, Nat.div_lt_iff_lt_mul hden]
    refine Nat.lt_of_le_of_ne h ?_
    rintro rfl
    rw [Nat.mul_mod_left] at hrest
    omega

theorem le_divNearest (hden : 0 < den) (h : k * den ≤ num) : k ≤ divNearest num den := by
  have hle : k ≤ num / den := (Nat.le_div_iff_mul_le hden).mpr h
  rcases divNearest_eq num den with ⟨heq, -⟩ | ⟨heq, -⟩ <;> omega

theorem two_mul_divNearest_mul_le (num den : Nat) :
    2 * (divNearest num den * den) ≤ 2 * num + den := by
  have hsplit := Nat.div_add_mod' num den
  rcases divNearest_eq num den with ⟨heq, -⟩ | ⟨heq, hrest⟩
  · rw [heq]
    omega
  · rw [heq, Nat.add_mul, Nat.one_mul]
    omega

/-!
# The unit
-/

theorem zpow_binaryExponent_le (hnum : num ≠ 0) (hden : den ≠ 0) :
    (2 : ℚ) ^ binaryExponent num den ≤ num / den := by
  have hpos : (0 : ℚ) < den := by positivity
  rw [binaryExponent]
  split
  · rename_i h
    rw [two_zpow_eq_div, div_le_div_iff₀ (by exact_mod_cast down_pos (by decide) _) hpos]
    exact_mod_cast (Nat.mul_comm _ _).trans_le h
  · have hlow : (2 : ℚ) ^ num.log2 ≤ num := by
      exact_mod_cast Nat.log2_self_le hnum
    have hhigh : (den : ℚ) ≤ 2 ^ (den.log2 + 1) := by
      exact_mod_cast Nat.lt_log2_self.le
    have hpow : (2 : ℚ) ^ ((num.log2 : ℤ) - den.log2 - 1) = 2 ^ num.log2 / 2 ^ (den.log2 + 1) := by
      rw [← zpow_natCast, ← zpow_natCast, ← zpow_sub₀ (by norm_num)]
      congr 1
      push_cast
      ring
    rw [hpow]
    gcongr

/-!
# Rounded magnitudes
-/

/-- The multiple of this unit that a number is rounded to. The unit is the least one, or else the
number is long enough for all bits of the mantissa. -/
structure IsRounded (f : Format) (v : ℚ) (m : Nat) (q : Int) : Prop where
  least_le : f.least ≤ q
  full : q = f.least ∨ (2 : ℚ) ^ (q + f.precision - 1) ≤ v
  le_of : ∀ k : Nat, v ≤ k * 2 ^ q → m ≤ k
  of_le : ∀ k : Nat, (k : ℚ) * 2 ^ q ≤ v → k ≤ m
  near : (m : ℚ) * 2 ^ q ≤ v + 2 ^ q / 2

/-- The datum of a rounded magnitude: all bits of the mantissa and a carry are the next power of
two, and what is not below the overflow bound is infinite. -/
def carried (f : Format) (negative : Bool) (m : Nat) (q : Int) : Floating :=
  let (m, q) := if m = Nat.pow 2 f.precision then (Nat.pow 2 (f.precision - 1), q + 1) else (m, q)
  if q + f.precision > f.limit then .infinite negative else .finite negative m q

theorem exists_isRounded (f : Format) (negative : Bool) (hnum : num ≠ 0) (hden : den ≠ 0) :
    ∃ m q, round f negative num den = carried f negative m q ∧ IsRounded f (num / den) m q := by
  have hden' : 0 < den := Nat.pos_of_ne_zero hden
  generalize hq : max (binaryExponent num den - (f.precision - 1)) f.least = q
  have hdown : (0 : ℚ) < down 2 q := Nat.cast_pos.mpr (down_pos (by decide) q)
  have hup : (0 : ℚ) < up 2 q := Nat.cast_pos.mpr (up_pos (by decide) q)
  have hpos : (0 : ℚ) < den := Nat.cast_pos.mpr hden'
  have hunit : 0 < den * up 2 q := Nat.mul_pos hden' (up_pos (by decide) q)
  -- Comparisons with multiples of the unit are comparisons of integers.
  have hle : ∀ k : Nat, (num / den : ℚ) ≤ k * 2 ^ q ↔ num * down 2 q ≤ k * (den * up 2 q) := by
    intro k
    rw [two_zpow_eq_div, mul_div_assoc', div_le_div_iff₀ hpos hdown, ← @Nat.cast_le ℚ]
    push_cast
    rw [mul_comm (den : ℚ), mul_assoc]
  have hge : ∀ k : Nat, (k * 2 ^ q : ℚ) ≤ num / den ↔ k * (den * up 2 q) ≤ num * down 2 q := by
    intro k
    rw [two_zpow_eq_div, mul_div_assoc', div_le_div_iff₀ hdown hpos, ← @Nat.cast_le ℚ]
    push_cast
    ring_nf
  refine ⟨divNearest (num * down 2 q) (den * up 2 q), q, ?_, ?_, ?_, ?_, ?_, ?_⟩
  · rw [round, if_neg hnum, hq]
    rfl
  · rw [← hq]
    exact le_max_right _ _
  · rcases le_total (binaryExponent num den - (f.precision - 1)) f.least with h | h
    · exact .inl (by rw [← hq, max_eq_right h])
    · right
      have hexp : q + f.precision - 1 = binaryExponent num den := by
        rw [← hq, max_eq_left h]
        ring
      rw [hexp]
      exact zpow_binaryExponent_le hnum hden
  · intro k hk
    exact divNearest_le hunit ((hle k).mp hk)
  · intro k hk
    exact le_divNearest hunit ((hge k).mp hk)
  · have hnear := two_mul_divNearest_mul_le (num * down 2 q) (den * up 2 q)
    generalize divNearest (num * down 2 q) (den * up 2 q) = m at hnear
    have hcast : (2 * (m * (den * up 2 q)) : ℚ) ≤ 2 * (num * down 2 q) + den * up 2 q := by
      exact_mod_cast hnear
    rw [two_zpow_eq_div, ← sub_nonneg]
    have hsum : (num / den + up 2 q / down 2 q / 2 - m * (up 2 q / down 2 q) : ℚ) =
        (2 * (num * down 2 q) + den * up 2 q - 2 * (m * (den * up 2 q))) /
          (2 * (den * down 2 q)) := by
      field_simp
    rw [hsum]
    exact div_nonneg (sub_nonneg.mpr hcast) (by positivity)

namespace IsRounded

variable {f : Format} {v : ℚ} {m : Nat} {q : Int}

theorem le (h : IsRounded f v m q) {M : Nat} {Q : Int} (hM : M < 2 ^ f.precision)
    (hQ : f.least ≤ Q) (hv : v ≤ M * 2 ^ Q) : (m : ℚ) * 2 ^ q ≤ M * 2 ^ Q := by
  have hunit : q ≤ Q := by
    rcases h.full with rfl | hfull
    · exact hQ
    · have hlt : (2 : ℚ) ^ (q + f.precision - 1) < 2 ^ (f.precision + Q) := by
        calc (2 : ℚ) ^ (q + f.precision - 1) ≤ M * 2 ^ Q := hfull.trans hv
          _ < 2 ^ f.precision * 2 ^ Q := by
              have hcast : (M : ℚ) < 2 ^ f.precision := by exact_mod_cast hM
              gcongr
          _ = 2 ^ (f.precision + Q) := by rw [zpow_add₀ (by norm_num), zpow_natCast]
      rw [zpow_lt_zpow_iff_right₀ (by norm_num)] at hlt
      omega
  obtain ⟨j, hj⟩ := Int.eq_ofNat_of_zero_le (Int.sub_nonneg_of_le hunit)
  have hpow : (M : ℚ) * 2 ^ Q = (M * 2 ^ j : Nat) * 2 ^ q := by
    have hsum : Q = j + q := by omega
    rw [hsum, zpow_add₀ (by norm_num), zpow_natCast]
    push_cast
    ring
  rw [hpow] at hv ⊢
  have hm : (m : ℚ) ≤ (M * 2 ^ j : Nat) := by exact_mod_cast h.le_of _ hv
  gcongr

theorem carried_eq (h : IsRounded f v m q) (hpos : 0 < f.precision)
    (hlimit : f.least + f.precision ≤ f.limit) (hv : (m : ℚ) * 2 ^ q < 2 ^ f.limit)
    (negative : Bool) :
    ∃ m' q', carried f negative m q = .finite negative m' q' ∧ (m' : ℚ) * 2 ^ q' = m * 2 ^ q := by
  have hpow : Nat.pow 2 f.precision = 2 * Nat.pow 2 (f.precision - 1) := by
    show 2 ^ f.precision = 2 * 2 ^ (f.precision - 1)
    rw [← Nat.pow_succ', Nat.succ_eq_add_one, Nat.sub_add_cancel hpos]
  by_cases hm : m = Nat.pow 2 f.precision
  · have hvalue : (Nat.pow 2 (f.precision - 1) : ℚ) * 2 ^ (q + 1) = m * 2 ^ q := by
      rw [hm, hpow, zpow_add_one₀ (by norm_num)]
      push_cast
      ring
    have hlt : (2 : ℚ) ^ (f.precision + q) < 2 ^ (f.limit : ℤ) := by
      rw [zpow_add₀ (by norm_num), zpow_natCast, zpow_natCast]
      have hcast : (m : ℚ) = 2 ^ f.precision := by
        rw [hm]
        exact Nat.cast_pow 2 f.precision
      rwa [← hcast]
    rw [zpow_lt_zpow_iff_right₀ (by norm_num)] at hlt
    refine ⟨Nat.pow 2 (f.precision - 1), q + 1, ?_, hvalue⟩
    rw [carried, if_pos hm]
    exact if_neg (by omega)
  · have hfits : q + f.precision ≤ f.limit := by
      rcases h.full with rfl | hfull
      · exact hlimit
      · have hhalf : 2 ^ (f.precision - 1) ≤ m := by
          apply h.of_le
          have hsum : q + f.precision - 1 = (f.precision - 1 : Nat) + q := by omega
          rw [hsum, zpow_add₀ (by norm_num), zpow_natCast] at hfull
          exact_mod_cast hfull
        have hcast : (2 : ℚ) ^ (f.precision - 1) ≤ m := by exact_mod_cast hhalf
        have hlt : (2 : ℚ) ^ (((f.precision - 1 : Nat) : ℤ) + q) < 2 ^ (f.limit : ℤ) := by
          rw [zpow_add₀ (by norm_num), zpow_natCast, zpow_natCast]
          calc (2 : ℚ) ^ (f.precision - 1) * 2 ^ q ≤ m * 2 ^ q := by gcongr
            _ < 2 ^ f.limit := hv
        rw [zpow_lt_zpow_iff_right₀ (by norm_num)] at hlt
        omega
    refine ⟨m, q, ?_, rfl⟩
    rw [carried, if_neg hm]
    exact if_neg (by omega)

theorem unit_le (h : IsRounded f v m q) (hlimit : f.least + f.precision ≤ f.limit)
    (hv : v < 2 ^ f.limit) : q + f.precision ≤ f.limit := by
  rcases h.full with rfl | hfull
  · exact hlimit
  · have hlt : (2 : ℚ) ^ (q + f.precision - 1) < 2 ^ (f.limit : ℤ) := by
      rw [zpow_natCast]
      exact hfull.trans_lt hv
    rw [zpow_lt_zpow_iff_right₀ (by norm_num)] at hlt
    omega

end IsRounded

def overflow (f : Format) : ℚ :=
  2 ^ f.limit - 2 ^ ((f.limit : ℤ) - f.precision) / 2

section

variable {f : Format} (hpos : 0 < f.precision) (hlimit : f.least + f.precision ≤ f.limit)
  (hden : den ≠ 0) (negative : Bool)
include hpos hlimit hden

theorem exists_round_of_lt (hnum : num ≠ 0) (hv : (num / den : ℚ) < overflow f) :
    ∃ m q m' q', IsRounded f (num / den) m q ∧
      round f negative num den = .finite negative m' q' ∧ (m' : ℚ) * 2 ^ q' = m * 2 ^ q := by
  obtain ⟨m, q, hround, h⟩ := exists_isRounded f negative hnum hden
  have hbelow : (num / den : ℚ) < 2 ^ f.limit := by
    have hunit : (0 : ℚ) < 2 ^ ((f.limit : ℤ) - f.precision) := by positivity
    rw [overflow] at hv
    linarith
  have hunit : (2 : ℚ) ^ q ≤ 2 ^ ((f.limit : ℤ) - f.precision) := by
    have hle := h.unit_le hlimit hbelow
    exact zpow_le_zpow_right₀ (by norm_num) (by omega)
  have hlt : (m : ℚ) * 2 ^ q < 2 ^ f.limit := by
    have hnear := h.near
    rw [overflow] at hv
    linarith
  obtain ⟨m', q', hcarried, hvalue⟩ := h.carried_eq hpos hlimit hlt negative
  exact ⟨m, q, m', q', h, hround.trans hcarried, hvalue⟩

/-- Below half a unit under the overflow bound every number is rounded to a finite datum. -/
theorem isFinite_round (hv : (num / den : ℚ) < overflow f) :
    (round f negative num den).isFinite = true := by
  by_cases hnum : num = 0
  · rw [round, if_pos hnum]
    rfl
  · obtain ⟨-, -, m, q, -, hround, -⟩ := exists_round_of_lt hpos hlimit hden negative hnum hv
    rw [hround]
    rfl

theorem round_le {M : Nat} {Q : Int} (hM : M < 2 ^ f.precision) (hQ : f.least ≤ Q)
    (hfits : Q + f.precision ≤ f.limit) (hv : (num / den : ℚ) ≤ M * 2 ^ Q) :
    ∃ m q, round f negative num den = .finite negative m q ∧ (m : ℚ) * 2 ^ q ≤ M * 2 ^ Q := by
  by_cases hnum : num = 0
  · refine ⟨0, f.least, by rw [round, if_pos hnum], ?_⟩
    rw [Nat.cast_zero, zero_mul]
    positivity
  · obtain ⟨m, q, hround, h⟩ := exists_isRounded f negative hnum hden
    have hle := h.le hM hQ hv
    have hlt : (m : ℚ) * 2 ^ q < 2 ^ f.limit := by
      calc (m : ℚ) * 2 ^ q ≤ M * 2 ^ Q := hle
        _ < 2 ^ f.precision * 2 ^ Q := by
            have hcast : (M : ℚ) < 2 ^ f.precision := by exact_mod_cast hM
            gcongr
        _ = 2 ^ (Q + f.precision) := by
            rw [zpow_add₀ (by norm_num), zpow_natCast, mul_comm]
        _ ≤ 2 ^ (f.limit : ℤ) := zpow_le_zpow_right₀ (by norm_num) hfits
        _ = 2 ^ f.limit := zpow_natCast 2 f.limit
    obtain ⟨m', q', hcarried, hvalue⟩ := h.carried_eq hpos hlimit hlt negative
    exact ⟨m', q', hround.trans hcarried, hvalue.trans_le hle⟩

/-- Where the mantissa has all its bits, rounding errs by half of the last bit at most. -/
theorem round_near (hlow : (2 : ℚ) ^ (f.least + f.precision - 1) ≤ num / den)
    (hv : (num / den : ℚ) < overflow f) :
    ∃ m q, round f negative num den = .finite negative m q ∧
      (m : ℚ) * 2 ^ q ≤ num / den * (1 + 2 ^ (-(f.precision : ℤ))) := by
  have hnum : num ≠ 0 := by
    rintro rfl
    rw [Nat.cast_zero, zero_div] at hlow
    exact absurd hlow (not_le.mpr (by positivity))
  obtain ⟨m, q, m', q', h, hround, hvalue⟩ :=
    exists_round_of_lt hpos hlimit hden negative hnum hv
  have hfull : (2 : ℚ) ^ (q + f.precision - 1) ≤ num / den := by
    rcases h.full with rfl | hfull
    · exact hlow
    · exact hfull
  have hunit : (2 : ℚ) ^ q / 2 = 2 ^ (q + f.precision - 1) * 2 ^ (-(f.precision : ℤ)) := by
    rw [← zpow_add₀ (by norm_num), div_eq_mul_inv, ← zpow_sub_one₀ (by norm_num)]
    congr 1
    ring
  have hhalf : (2 : ℚ) ^ q / 2 ≤ num / den * 2 ^ (-(f.precision : ℤ)) := by
    rw [hunit]
    gcongr
  refine ⟨m', q', hround, ?_⟩
  have hnear := h.near
  rw [hvalue, mul_one_add]
  linarith

end

/-!
# The last midpoint
-/

@[irreducible]
def lastMidpoint (f : Format) : Nat :=
  (2 ^ (f.precision + 1) - 3) * 2 ^ (f.limit - f.precision - 1)

section

variable {f : Format} (hpos : 1 < f.precision) (hlimit : f.precision < f.limit)
include hpos hlimit

theorem cast_lastMidpoint :
    (lastMidpoint f : ℚ) =
      (2 ^ (f.precision + 1) - 3) * 2 ^ ((f.limit : ℤ) - f.precision - 1) := by
  have hle : 3 ≤ 2 ^ (f.precision + 1) :=
    (show 3 ≤ 2 ^ 2 by decide).trans (Nat.pow_le_pow_right (by decide) (by omega))
  have hexp : (f.limit : ℤ) - f.precision - 1 = (f.limit - f.precision - 1 : Nat) := by omega
  rw [lastMidpoint, hexp, zpow_natCast, Nat.cast_mul, Nat.cast_sub hle]
  push_cast
  rfl

theorem lastMidpoint_mul_lt :
    (lastMidpoint f : ℚ) * (1 + 2 ^ (-(f.precision : ℤ))) < overflow f := by
  have hpow : (2 : ℚ) ^ f.limit =
      2 ^ (f.precision + 1) * 2 ^ ((f.limit : ℤ) - f.precision - 1) := by
    rw [← zpow_natCast, ← zpow_natCast, ← zpow_add₀ (by norm_num)]
    congr 1
    push_cast
    ring
  have hunit : (2 : ℚ) ^ ((f.limit : ℤ) - f.precision) =
      2 ^ ((f.limit : ℤ) - f.precision - 1) * 2 := by
    rw [← zpow_add_one₀ (by norm_num), sub_add_cancel]
  have hbit : (2 : ℚ) ^ (f.precision + 1) * 2 ^ (-(f.precision : ℤ)) = 2 := by
    rw [zpow_neg, zpow_natCast, pow_succ]
    field_simp
  have hsmall : (0 : ℚ) < 2 ^ (-(f.precision : ℤ)) := by positivity
  have hu : (0 : ℚ) < 2 ^ ((f.limit : ℤ) - f.precision - 1) := by positivity
  rw [overflow, hpow, hunit, cast_lastMidpoint hpos hlimit]
  generalize (2 : ℚ) ^ ((f.limit : ℤ) - f.precision - 1) = u at hu ⊢
  calc ((2 : ℚ) ^ (f.precision + 1) - 3) * u * (1 + 2 ^ (-(f.precision : ℤ)))
      = (2 ^ (f.precision + 1) - 3 + (2 ^ (f.precision + 1) * 2 ^ (-(f.precision : ℤ)) -
          3 * 2 ^ (-(f.precision : ℤ)))) * u := by ring
    _ < (2 ^ (f.precision + 1) - 1) * u := by
        rw [hbit]
        gcongr
        linarith
    _ = 2 ^ (f.precision + 1) * u - u * 2 / 2 := by ring

theorem upperMidpoint_le {m : Nat} {q : Int} (hm : m < 2 ^ f.precision)
    (hq : q + f.precision ≤ f.limit) (hlast : ¬ (m + 1 = 2 ^ f.precision ∧
      q + f.precision = f.limit)) :
    ((4 * m + 2 : Nat) : ℚ) * 2 ^ (q - 2) ≤ lastMidpoint f := by
  rw [cast_lastMidpoint hpos hlimit, pow_succ]
  have hfour : (4 : ℚ) ≤ 2 ^ f.precision := by
    exact_mod_cast Nat.pow_le_pow_right (show 0 < 2 by decide) hpos
  rcases eq_or_lt_of_le hq with heq | hlt
  · have hm' : (m : ℚ) + 2 ≤ 2 ^ f.precision := by
      have : m + 2 ≤ 2 ^ f.precision := by omega
      exact_mod_cast this
    have hexp : (f.limit : ℤ) - f.precision - 1 = q - 2 + 1 := by omega
    rw [hexp, zpow_add_one₀ (by norm_num), ← mul_assoc, mul_right_comm _ _ (2 : ℚ)]
    gcongr
    push_cast
    linarith
  · have hm' : (m : ℚ) + 1 ≤ 2 ^ f.precision := by exact_mod_cast hm
    have hexp : (2 : ℚ) ^ (q - 2) * 4 ≤ 2 ^ ((f.limit : ℤ) - f.precision - 1) := by
      rw [show (4 : ℚ) = 2 ^ (2 : ℤ) by norm_num, ← zpow_add₀ (by norm_num)]
      exact zpow_le_zpow_right₀ (by norm_num) (by omega)
    calc ((4 * m + 2 : Nat) : ℚ) * 2 ^ (q - 2)
        ≤ (2 ^ f.precision * 2 - 3) * 4 * 2 ^ (q - 2) := by
          gcongr
          push_cast
          linarith
      _ = (2 ^ f.precision * 2 - 3) * (2 ^ (q - 2) * 4) := by ring
      _ ≤ (2 ^ f.precision * 2 - 3) * 2 ^ ((f.limit : ℤ) - f.precision - 1) := by
          gcongr
          linarith

end

end Floating
end Parley
