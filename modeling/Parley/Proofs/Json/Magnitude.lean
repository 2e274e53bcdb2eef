import Parley.Proofs.Json.Literal
import Parley.Proofs.Number.Grid
import Parley.Proofs.Number.Rounding

/-!
# Written data are read as numbers

Reading scales the digits by a power of ten that is itself rounded, so a decimal below the
overflow bound may still come out infinite. No shortest decimal does: up to the midpoint
of the two greatest data there is room for both roundings, and only the greatest datum is
written with a decimal above it.
-/

namespace Parley
namespace Json
namespace Literal

open Floating Text

/-!
# Scaling up
-/

theorem mul_pow_le {n m k l bound : Nat} (h : m * 10 ^ l ≤ bound) (hn : n ≤ m) (hk : k ≤ l) :
    n * 10 ^ k ≤ bound :=
  (Nat.mul_le_mul hn (Nat.pow_le_pow_right (by decide) hk)).trans h

theorem lt_of_mul_pow_le {n m k l bound : Nat} (h : n * 10 ^ k ≤ bound) (hk : l ≤ k)
    (hm : bound < m * 10 ^ l) : n < m := by
  by_contra hle
  exact absurd (mul_pow_le h (Nat.le_of_not_lt hle) hk) (Nat.not_le.mpr hm)

theorem exists_powerOfTen {k : Nat} (hk : k ≤ 308) :
    ∃ m q, powerOfTen k = .finite false m q ∧
      (m : ℚ) * 2 ^ q ≤ 10 ^ k * (1 + 2 ^ (-53 : ℤ)) := by
  have hone : (1 : ℚ) ≤ (10 ^ k : Nat) / (1 : Nat) := by
    rw [Nat.cast_one, div_one]
    exact_mod_cast Nat.one_le_pow k 10 (by decide)
  have hlow : (2 : ℚ) ^ (-1074 + 53 - 1 : ℤ) ≤ (10 ^ k : Nat) / (1 : Nat) :=
    (zpow_le_one_of_nonpos₀ (by norm_num) (by norm_num)).trans hone
  have hmidpoint : 1 * 10 ^ k ≤ lastMidpoint .binary64 :=
    mul_pow_le (l := 308) (by decide +kernel) (Nat.le_refl 1) hk
  have hhigh : ((10 ^ k : Nat) : ℚ) / (1 : Nat) < overflow .binary64 := by
    rw [Nat.cast_one, div_one]
    calc ((10 ^ k : Nat) : ℚ) ≤ lastMidpoint .binary64 := by
          exact_mod_cast (Nat.one_mul _).symm.trans_le hmidpoint
      _ ≤ lastMidpoint .binary64 * (1 + 2 ^ (-53 : ℤ)) :=
          le_mul_of_one_le_right (Nat.cast_nonneg _) (by norm_num)
      _ < overflow .binary64 := lastMidpoint_mul_lt (by decide) (by decide)
  obtain ⟨m, q, hround, hvalue⟩ :=
    round_near (f := .binary64) (by decide) (by decide) one_ne_zero false hlow hhigh
  refine ⟨m, q, hround, ?_⟩
  rwa [Nat.cast_one, div_one, Nat.cast_pow] at hvalue

theorem isSome_scaleUp_of_le {n M j k : Nat} (hM : M < 2 ^ 53) (hj : j ≤ 971) (hn : n ≤ M * 2 ^ j)
    (hk : k ≤ 308) (h : M * 2 ^ j * 10 ^ k ≤ lastMidpoint .binary64) :
    (scaleUp (ofNat .binary64 n) k).isSome = true := by
  have hvalue : ((n : ℚ) / (1 : Nat)) ≤ M * 2 ^ (j : ℤ) := by
    rw [Nat.cast_one, div_one, zpow_natCast]
    exact_mod_cast hn
  obtain ⟨m, q, hround, hm⟩ := round_le (f := .binary64) (by decide) (by decide) one_ne_zero false
    hM (show (-1074 : ℤ) ≤ j by omega) (show (j : ℤ) + 53 ≤ 1024 by omega) hvalue
  obtain ⟨p, r, hpower, hp⟩ := exists_powerOfTen hk
  have hproduct : ((m * p * up 2 (q + r) : Nat) : ℚ) / (down 2 (q + r) : Nat) <
      overflow .binary64 := by
    rw [Nat.cast_mul, mul_div_assoc, ← two_zpow_eq_div, zpow_add₀ (by norm_num)]
    calc ((m * p : Nat) : ℚ) * (2 ^ q * 2 ^ r) = m * 2 ^ q * (p * 2 ^ r) := by
          push_cast
          ring
      _ ≤ M * 2 ^ (j : ℤ) * (10 ^ k * (1 + 2 ^ (-53 : ℤ))) := by gcongr
      _ = (M * 2 ^ j * 10 ^ k : Nat) * (1 + 2 ^ (-53 : ℤ)) := by
          push_cast
          rw [zpow_natCast]
          ring
      _ ≤ lastMidpoint .binary64 * (1 + 2 ^ (-53 : ℤ)) := by gcongr
      _ < overflow .binary64 := lastMidpoint_mul_lt (by decide) (by decide)
  have hfinite := isFinite_round (f := .binary64) (by decide) (by decide)
    (down_pos (by decide) (q + r)).ne' false hproduct
  have hscaled : (ofNat .binary64 n).times .binary64 (powerOfTen k) =
      round .binary64 false (m * p * up 2 (q + r)) (down 2 (q + r)) := by
    rw [ofNat, hround, hpower]
    rfl
  rw [scaleUp, if_pos hk, hscaled]
  simp only [hfinite, if_true, Option.isSome_some]

theorem isSome_scaleUp {n k : Nat} (hpos : 0 < n) (hn : n ≤ 10 ^ 17)
    (h : n * 10 ^ k ≤ lastMidpoint .binary64) :
    (scaleUp (ofNat .binary64 n) k).isSome = true := by
  have hk : k ≤ 308 := by
    by_contra hlarge
    have hlt : n < 1 := lt_of_mul_pow_le (l := 309) h (by omega) (by decide +kernel)
    omega
  rcases Nat.lt_trichotomy k 292 with hlt | rfl | hgt
  · have hsplit : 10 ^ 17 = 5 ^ 17 * 2 ^ 17 := by decide
    have hroom : 5 ^ 17 * 2 ^ 17 * 10 ^ k ≤ lastMidpoint .binary64 :=
      mul_pow_le (l := 291) (m := 10 ^ 17) (by decide +kernel) hsplit.ge (by omega)
    exact isSome_scaleUp_of_le (by decide) (by decide) (hsplit ▸ hn) hk hroom
  · have hlt : n < 17976931348623157 := lt_of_mul_pow_le h (Nat.le_refl _) (by decide +kernel)
    have hbound : n ≤ 8988465674311578 * 2 ^ 1 := by omega
    exact isSome_scaleUp_of_le (by decide) (by decide) hbound hk (by decide +kernel)
  · have hbound : n < 2 ^ 53 := lt_of_mul_pow_le (l := 293) h hgt (by decide +kernel)
    exact isSome_scaleUp_of_le (M := n) (j := 0) hbound (by decide) (by simp) hk (by simpa using h)

theorem isSome_scale_of_nonpos {n : Nat} {shift : Int} (hn : n < wordBound) (hshift : shift ≤ 0) :
    (scale (ofNat .binary64 n) shift).isSome = true := by
  rcases Int.lt_or_eq_of_le hshift with hlt | rfl
  · rw [scale, if_neg (Int.not_le.mpr hlt)]
    rfl
  · exact isSome_scaleUp_of_le (M := 1) (j := 64) (k := 0) (by decide) (by decide) (Nat.le_of_lt hn)
      (by decide) (by decide +kernel)

/-!
# Shortest decimals
-/

/-- The digits are few enough, and scaling them up does not overflow. -/
structure IsReadable (d : Decimal) : Prop where
  digits_le : d.digits ≤ 10 ^ 17
  below : 0 ≤ d.exponent → d.digits * 10 ^ d.exponent.toNat < 10 ^ 309
  scaled : 0 ≤ d.exponent → (scaleUp (ofNat .binary64 d.digits) d.exponent.toNat).isSome = true

theorem isReadable_zero : IsReadable ⟨0, 0⟩ where
  digits_le := Nat.zero_le _
  below _ := by decide +kernel
  scaled _ := by decide +kernel

theorem shortest_last :
    shortest .binary64 9007199254740991 971 = ⟨17976931348623157, 292⟩ := by
  decide +kernel

theorem isReadable_last : IsReadable ⟨17976931348623157, 292⟩ where
  digits_le := by decide
  below _ := by decide +kernel
  scaled _ := by decide +kernel

theorem isReadable_shortest {m : Nat} {q : Int} (hm : m < 2 ^ 53) (hq : q ≤ 971) :
    IsReadable (shortest .binary64 m q) := by
  by_cases hzero : m = 0
  · rw [shortest, if_pos hzero]
    exact isReadable_zero
  by_cases hlast : m + 1 = 2 ^ 53 ∧ q + 53 = 1024
  · have hm' : m = 9007199254740991 := by omega
    have hq' : q = 971 := by omega
    rw [hm', hq', shortest_last]
    exact isReadable_last
  obtain ⟨hdigits, hvalue⟩ := shortest_le hzero hm q
  have hpos := Nat.pos_of_ne_zero (shortest_ne_zero .binary64 hzero q)
  have hmidpoint := upperMidpoint_le (f := .binary64) (by decide) (by decide) hm
    (show q + 53 ≤ 1024 by omega) hlast
  have hroom : 0 ≤ (shortest .binary64 m q).exponent → (shortest .binary64 m q).digits *
      10 ^ (shortest .binary64 m q).exponent.toNat ≤ lastMidpoint .binary64 := by
    intro hexponent
    have hle := hvalue.trans hmidpoint
    rw [Decimal.value, ← Int.toNat_of_nonneg hexponent, zpow_natCast] at hle
    exact_mod_cast hle
  exact ⟨hdigits, fun h => (hroom h).trans_lt (by decide +kernel),
    fun h => isSome_scaleUp hpos hdigits (hroom h)⟩

/-!
# The digits of a literal
-/

theorem foldl_lt {ds : List Char} (h : ∀ c ∈ ds, isAsciiDigit c = true) (n : Nat) :
    ds.foldl (fun n c => n * 10 + digitValue c) n < (n + 1) * 10 ^ ds.length := by
  induction ds generalizing n with
  | nil =>
      rw [List.foldl_nil, List.length_nil]
      omega
  | cons d ds ih =>
      have hd : digitValue d ≤ 9 := digitValue_le (h d (by simp))
      have hrest := ih (fun c hc => h c (List.mem_cons_of_mem d hc)) (n * 10 + digitValue d)
      have hstep : n * 10 + digitValue d + 1 ≤ (n + 1) * 10 := by omega
      rw [List.foldl_cons, List.length_cons, Nat.pow_succ']
      calc ds.foldl (fun n c => n * 10 + digitValue c) (n * 10 + digitValue d)
          < (n * 10 + digitValue d + 1) * 10 ^ ds.length := hrest
        _ ≤ (n + 1) * 10 * 10 ^ ds.length := Nat.mul_le_mul_right _ hstep
        _ = (n + 1) * (10 * 10 ^ ds.length) := Nat.mul_assoc _ _ _

theorem absorb_lt {n : Nat} (hn : n < wordBound) (ds : List Char) :
    (absorb n ds).1 < wordBound := by
  induction ds generalizing n with
  | nil => exact hn
  | cons d ds ih =>
      rw [absorb]
      split
      · rename_i hnext
        exact ih hnext
      · exact hn

theorem absorb_of_length_le {ds : List Char} (h : ∀ c ∈ ds, isAsciiDigit c = true)
    (hlength : ds.length ≤ 16) : (absorb 0 ds).2 = [] := by
  have hlt := foldl_lt h 0
  have hpow : 10 ^ ds.length ≤ 10 ^ 16 := Nat.pow_le_pow_right (by decide) hlength
  rw [absorb_of_foldl_lt]
  refine hlt.trans_le ?_
  rw [Nat.zero_add, Nat.one_mul]
  exact hpow.trans (by decide)

variable {l : Literal} {d : Decimal}

theorem isSome_number? (h : l.real?.isSome = true) : l.number?.isSome = true := by
  rw [number?]
  split
  · rfl
  · rw [Option.isSome_map]
    exact h

theorem isSome_real?_of_exponent_eq_none (hexponent : l.exponent = none)
    (hdigits : ∀ c ∈ l.whole, isAsciiDigit c = true) (hlength : l.whole.length ≤ 16) :
    l.real?.isSome = true := by
  have hdropped := absorb_of_length_le hdigits hlength
  have hwhole : (absorb 0 l.whole).1 < wordBound := absorb_lt (by decide) _
  have hfraction := absorb_lt hwhole l.fraction
  unfold real?
  rw [hexponent]
  dsimp only
  rw [hdropped, Option.isSome_map]
  refine isSome_scale_of_nonpos hfraction ?_
  rw [List.length_nil]
  omega

theorem isSome_real?_ofPositional (negative : Bool) (h : leadOf d < 16) :
    (ofPositional negative d).real?.isSome = true := by
  have hdigits : ∀ c ∈ digits d.digits, isAsciiDigit c = true :=
    fun _ hc => isAsciiDigit_of_mem_digits hc
  have hlength := length_digits_pos d.digits
  unfold leadOf at h
  unfold ofPositional
  split
  · refine isSome_real?_of_exponent_eq_none rfl ?_ ?_
    · exact List.forall_mem_append.mpr ⟨hdigits, fun _ hc => isAsciiDigit_of_mem_replicate hc⟩
    · rw [List.length_append, List.length_replicate]
      omega
  · split
    · refine isSome_real?_of_exponent_eq_none rfl ?_ ?_
      · exact fun c hc => hdigits c (List.mem_of_mem_take hc)
      · rw [List.length_take]
        unfold leadOf
        omega
    · refine isSome_real?_of_exponent_eq_none rfl ?_ (Nat.le_add_left 1 15)
      exact fun _ hc => isAsciiDigit_of_mem_replicate (n := 1) hc

theorem exponentValue?_digits (n : Nat) :
    exponentValue? (digits n) = if n < 2147483648 then some n else none := by
  rw [exponentValue?, foldl_digits]

theorem IsReadable.leadOf_lt (h : IsReadable d) (hpos : 0 < d.digits) : leadOf d < 309 := by
  have hlength := length_digits_pos d.digits
  have hfirst := pow_length_digits_le hpos
  rcases Int.lt_or_le d.exponent 0 with hneg | hnonneg
  · have hfew : (digits d.digits).length - 1 < 18 := by
      rw [← Nat.pow_lt_pow_iff_right (show 1 < 10 by decide)]
      exact hfirst.trans_lt (h.digits_le.trans_lt (by decide))
    unfold leadOf
    omega
  · have hfew : (digits d.digits).length - 1 + d.exponent.toNat < 309 := by
      by_contra hmany
      have hle : 1 * 10 ^ ((digits d.digits).length - 1 + d.exponent.toNat) ≤
          d.digits * 10 ^ d.exponent.toNat := by
        rw [Nat.one_mul, Nat.pow_add]
        exact Nat.mul_le_mul_right _ hfirst
      refine absurd (lt_of_mul_pow_le (l := 309) (m := 1) hle (by omega) ?_) (Nat.lt_irrefl 1)
      rw [Nat.one_mul]
      exact h.below hnonneg
    unfold leadOf
    omega

theorem absorb_digits_take (h : d.digits < wordBound) (k : Nat) :
    ∃ n, absorb 0 ((digits d.digits).take k) = (n, []) ∧
      absorb n ((digits d.digits).drop k) = (d.digits, []) := by
  have hall := foldl_digits d.digits
  rw [← List.take_append_drop k (digits d.digits), List.foldl_append] at hall
  have hrest : absorb _ ((digits d.digits).drop k) = (_, []) :=
    absorb_of_foldl_lt (hall.trans_lt h)
  rw [hall] at hrest
  exact ⟨_, absorb_of_foldl_lt ((le_foldl_digits _ _).trans_lt (hall.trans_lt h)), hrest⟩

theorem IsReadable.isSome_scale (h : IsReadable d) :
    (scale (ofNat .binary64 d.digits) d.exponent).isSome = true := by
  rw [scale]
  split
  · rename_i hexponent
    exact h.scaled hexponent
  · rfl

theorem isSome_real?_ofScientific (negative : Bool) (h : IsReadable d) (hpos : 0 < d.digits) :
    (ofScientific negative d).real?.isSome = true := by
  have hword : d.digits < wordBound := h.digits_le.trans_lt (by decide)
  obtain ⟨n, hwhole, hfraction⟩ := absorb_digits_take hword 1
  have hlead := h.leadOf_lt hpos
  unfold real? ofScientific magnitude?
  dsimp only
  rw [hwhole]
  dsimp only
  rw [hfraction, Option.isSome_map, exponentValue?_digits]
  by_cases hfits : (leadOf d).natAbs < 2147483648
  · have hscale := h.isSome_scale
    have hlength := length_digits_pos d.digits
    have hshift : (if decide (leadOf d < 0) = true then
          (0 : ℤ) - ((digits d.digits).length - 1 : Nat) - (leadOf d).natAbs
        else 0 - ((digits d.digits).length - 1 : Nat) + (leadOf d).natAbs) = d.exponent := by
      unfold leadOf
      split
      · rename_i hneg
        rw [decide_eq_true_eq] at hneg
        omega
      · rename_i hnonneg
        rw [decide_eq_true_eq] at hnonneg
        omega
    rw [← hshift] at hscale
    simpa [hfits] using hscale
  · have hneg : leadOf d < 0 := by omega
    simp [hfits, hneg]

/-- Whatever the layout, a readable decimal is read. -/
theorem isSome_number?_ofDecimal {layout : Layout} (hlayout : layout.positionalBelow ≤ 16)
    (negative : Bool) (h : IsReadable d) (hzero : d.digits = 0 → layout.positionalFrom ≤ leadOf d ∧
      leadOf d < layout.positionalBelow) :
    (ofDecimal layout negative d).number?.isSome = true := by
  apply isSome_number?
  rw [ofDecimal]
  split
  · rename_i hplace
    exact isSome_real?_ofPositional negative (hplace.2.trans_le hlayout)
  · rename_i hplace
    exact isSome_real?_ofScientific negative h (Nat.pos_of_ne_zero fun h => hplace (hzero h))

end Literal

/-!
# Numbers
-/

inductive Number.IsFinite : Number → Prop where
  | int {n : Int} (low : -9223372036854775808 ≤ n) (high : n < 18446744073709551616) :
      IsFinite (.int n)
  | real (bits : UInt64) (h : (Floating.ofBits64 bits.toNat).isFinite = true) :
      IsFinite (.real (Floating.ofBits64 bits.toNat))

theorem isReadable_of_ofBits64 {bits : Nat} {negative : Bool} {m : Nat} {q : Int}
    (h : Floating.ofBits64 bits = .finite negative m q) :
    Literal.IsReadable (Floating.shortest .binary64 m q) := by
  have hfraction : bits % 4503599627370496 < 4503599627370496 := Nat.mod_lt _ (by decide)
  have hfield : bits / 4503599627370496 % 2048 < 2048 := Nat.mod_lt _ (by decide)
  unfold Floating.ofBits64 at h
  dsimp only at h
  split at h
  · split at h <;> cases h
  · split at h <;> cases h <;> exact Literal.isReadable_shortest (by omega) (by omega)

theorem Number.IsFinite.exists_literal {n : Number} (h : n.IsFinite) :
    ∃ l, n.literal? = some l ∧ l.number?.isSome = true := by
  cases h with
  | @int n low high =>
      refine ⟨.ofInt n, rfl, ?_⟩
      rw [Literal.number?_ofInt low high]
      rfl
  | real bits h =>
      cases hdatum : Floating.ofBits64 bits.toNat with
      | finite negative m q =>
          refine ⟨_, rfl, Literal.isSome_number?_ofDecimal (by decide) negative
            (isReadable_of_ofBits64 hdatum) fun hzero => ?_⟩
          rw [Literal.leadOf, Floating.exponent_shortest_of_zero hzero, hzero]
          decide +kernel
      | infinite negative =>
          rw [hdatum] at h
          cases h
      | nan =>
          rw [hdatum] at h
          cases h

end Json
end Parley
