import Parley.Number.Shortest

/-!
# Shortest decimals of zero and of other data

The shortest decimal has the digits of zero for zero alone, and then no exponent.
-/

namespace Parley
namespace Floating

theorem roundsTo_zero (f : Format) {m : Nat} (hm : m ≠ 0) (q e : Int) :
    roundsTo f m q 0 e = false := by
  have hup : 0 < up 2 (q - 2) := Nat.pow_pos (by decide)
  have hdown : 0 < down 10 e := Nat.pow_pos (by decide)
  have hbelow : ∀ b, 0 < b → compareDecimal 0 e b (q - 2) = .lt := by
    intro b hb
    have hpos : 0 < b * up 2 (q - 2) * down 10 e :=
      Nat.mul_pos (Nat.mul_pos hb hup) hdown
    rw [compareDecimal, Nat.zero_mul, Nat.zero_mul]
    exact Nat.compare_eq_lt.mpr hpos
  have hgap : ∀ narrow : Bool, 0 < 4 * m - (if narrow = true then 1 else 2) := by
    intro narrow
    cases narrow <;> simp <;> omega
  unfold roundsTo
  extract_lets narrow low high
  have hlow : low = .lt := hbelow _ (hgap narrow)
  rw [hlow]
  split <;> rfl

theorem onGrid_ne_zero {f : Format} {m : Nat} {q : Int} {n : Nat} {d : Decimal} (hm : m ≠ 0)
    (h : onGrid f m q n = some d) : d.digits ≠ 0 := by
  have hrounds : ∀ {a : Nat} {e : Int}, roundsTo f m q a e = true → a ≠ 0 := by
    rintro a e ha rfl
    rw [roundsTo_zero f hm] at ha
    cases ha
  simp only [onGrid] at h
  split at h
  · rename_i ha _
    cases h
    exact hrounds ha
  · cases h
    exact Nat.succ_ne_zero _
  · cases h
  · rename_i ha _
    split at h
    · cases h
      exact Nat.succ_ne_zero _
    · cases h
      exact hrounds ha
    · cases h
      dsimp only
      split
      · exact hrounds ha
      · exact Nat.succ_ne_zero _

theorem strip_ne_zero (fuel : Nat) {d : Decimal} (h : d.digits ≠ 0) :
    (strip fuel d).digits ≠ 0 := by
  induction fuel generalizing d with
  | zero => exact h
  | succ fuel ih =>
      rw [strip]
      split
      · rename_i hd
        refine ih ?_
        show d.digits / 10 ≠ 0
        omega
      · exact h

theorem shortest_ne_zero (f : Format) {m : Nat} (hm : m ≠ 0) (q : Int) :
    (shortest f m q).digits ≠ 0 := by
  rw [shortest, if_neg hm]
  split
  · rename_i d hd
    obtain ⟨n, -, hn⟩ := List.exists_of_findSome?_eq_some hd
    exact strip_ne_zero 17 (onGrid_ne_zero hm hn)
  · exact hm

theorem exponent_shortest_of_zero {f : Format} {m : Nat} {q : Int}
    (h : (shortest f m q).digits = 0) : (shortest f m q).exponent = 0 := by
  by_cases hm : m = 0
  · rw [shortest, if_pos hm]
  · exact absurd h (shortest_ne_zero f hm q)

end Floating
end Parley
