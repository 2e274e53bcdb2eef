import Mathlib.Data.Rat.Cast.Order
import Mathlib.Order.WithBot
import Mathlib.Algebra.Order.Field.Power
import Mathlib.Tactic.Ring
import Parley.Number.Floating

/-!
# The order of data is that of numbers

A finite datum is a rational number, the infinite ones are the ends of the line, and a
NaN is no number. One datum is less than another one exactly if both are numbers and the
one number is less than the other one.
-/

namespace Parley
namespace Floating

def rational (negative : Bool) (m : Nat) (q : Int) : ℚ :=
  (if negative then -1 else 1) * m * 2 ^ q

def value? : Floating → Option (WithBot (WithTop ℚ))
  | finite negative m q => some ((rational negative m q : WithTop ℚ) : WithBot (WithTop ℚ))
  | infinite negative => some (if negative then ⊥ else ⊤)
  | nan => none

theorem cast_up {k : Int} (hk : 0 ≤ k) : (up 2 k : ℚ) = 2 ^ k := by
  obtain ⟨n, rfl⟩ := Int.eq_ofNat_of_zero_le hk
  have hup : up 2 (n : Int) = 2 ^ n := by
    rw [up, Int.toNat_natCast]
    rfl
  rw [hup, zpow_natCast, Nat.cast_pow, Nat.cast_ofNat]

theorem cast_scaled (negative : Bool) (m : Nat) {q base : Int} (hbase : base ≤ q) :
    (scaled negative m q base : ℚ) * 2 ^ base = rational negative m q := by
  have hpow : (up 2 (q - base) : ℚ) * 2 ^ base = 2 ^ q := by
    rw [cast_up (by omega), ← zpow_add₀ (by norm_num), Int.sub_add_cancel]
  have hcast : (scaled negative m q base : ℚ) =
      (if negative then -1 else 1) * m * up 2 (q - base) := by
    cases negative <;> simp [scaled]
  rw [hcast, rational, ← hpow]
  ring

theorem scaled_lt_iff (s t : Bool) (m n : Nat) (q r : Int) :
    scaled s m q (min q r) < scaled t n r (min q r) ↔ rational s m q < rational t n r := by
  have hpos : (0 : ℚ) < 2 ^ min q r := zpow_pos (by norm_num) _
  rw [← cast_scaled s m (min_le_left q r), ← cast_scaled t n (min_le_right q r),
    mul_lt_mul_iff_left₀ hpos, Int.cast_lt]

theorem coe_lt_top (a : ℚ) : ((a : WithTop ℚ) : WithBot (WithTop ℚ)) < ⊤ :=
  WithBot.coe_lt_coe.mpr (WithTop.coe_lt_top a)

theorem lt_iff (x y : Floating) :
    x.lt y = true ↔ ∃ a ∈ x.value?, ∃ b ∈ y.value?, a < b := by
  cases x with
  | finite s m q =>
      cases y with
      | finite t n r => simpa [lt, value?] using scaled_lt_iff s t m n q r
      | infinite t => cases t <;> simp [lt, value?, coe_lt_top]
      | nan => simp [lt, value?]
  | infinite s =>
      cases y with
      | finite t n r => cases s <;> simp [lt, value?]
      | infinite t => cases s <;> cases t <;> simp [lt, value?]
      | nan => simp [lt, value?]
  | nan => cases y <;> simp [lt, value?]

theorem le_iff (x y : Floating) :
    x.le y = true ↔ ∃ a ∈ x.value?, ∃ b ∈ y.value?, a ≤ b := by
  have hnumbers : ∀ a b, x.value? = some a → y.value? = some b →
      ((!y.lt x) = true ↔ ∃ a ∈ x.value?, ∃ b ∈ y.value?, a ≤ b) := by
    intro a b ha hb
    have hlt := lt_iff y x
    rw [ha, hb] at hlt ⊢
    simpa [← not_lt] using not_congr hlt
  cases x <;> cases y <;> first | exact hnumbers _ _ rfl rfl | simp [le, value?]

theorem value?_zero (f : Format) : (zero f).value? = some 0 := by
  simp [zero, value?, rational]

theorem value?_eq_none {x : Floating} : x.value? = none ↔ x = nan := by
  cases x <;> simp [value?]

end Floating
end Parley
