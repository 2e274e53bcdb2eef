import Mathlib.Algebra.Group.Nat.Defs
import Parley.Text.Digit

/-!
# Numerals

The digits of a number are ASCII digits, they are the usual decimal numeral, and they
are read back as that number.
-/

namespace Parley
namespace Text

theorem isDecimalDigit_of_isAsciiDigit {c : Char} (h : isAsciiDigit c = true) :
    isDecimalDigit c = true := by
  have hrange : '0' ≤ c ∧ c ≤ '9' := by
    simpa [isAsciiDigit] using h
  have hlow : 0x30 ≤ c.toNat := hrange.left
  have hhigh : c.toNat ≤ 0x39 := hrange.right
  simp [isDecimalDigit, decimalDigitRuns, hlow, hhigh]

theorem digitValue_le {c : Char} (h : isAsciiDigit c = true) : digitValue c ≤ 9 := by
  have hrange : '0' ≤ c ∧ c ≤ '9' := by
    simpa [isAsciiDigit] using h
  have hhigh : c.toNat ≤ 57 := hrange.right
  exact Nat.sub_le_sub_right hhigh 48

theorem isAsciiDigit_digitChar {n : Nat} (h : n < 10) :
    isAsciiDigit (digitChar n) = true := by
  have hall : ∀ d : Fin 10, isAsciiDigit (digitChar d) = true := by decide
  exact hall ⟨n, h⟩

theorem digitValue_digitChar {n : Nat} (h : n < 10) :
    digitValue (digitChar n) = n := by
  have hall : ∀ d : Fin 10, digitValue (digitChar d) = d := by decide
  exact hall ⟨n, h⟩

theorem digits_ne_nil (n : Nat) : digits n ≠ [] := by
  rw [digits]
  split <;> simp

theorem isAsciiDigit_of_mem_digits {n : Nat} {c : Char} (h : c ∈ digits n) :
    isAsciiDigit c = true := by
  fun_induction digits n with
  | case1 n hn =>
      have hc : c = digitChar n := by simpa using h
      rw [hc]
      exact isAsciiDigit_digitChar hn
  | case2 n _ ih =>
      rcases List.mem_append.mp h with hinit | hlast
      · exact ih hinit
      · have hc : c = digitChar (n % 10) := by simpa using hlast
        rw [hc]
        exact isAsciiDigit_digitChar (Nat.mod_lt n (by decide))

theorem digitChar_eq {n : Nat} (h : n < 10) : digitChar n = n.digitChar := by
  have hall : ∀ d : Fin 10, digitChar d = Nat.digitChar d := by decide
  exact hall ⟨n, h⟩

theorem digits_eq_toDigits (n : Nat) : digits n = Nat.toDigits 10 n := by
  fun_induction digits n with
  | case1 n hn => rw [Nat.toDigits_of_lt_base hn, digitChar_eq hn]
  | case2 n hn ih =>
      rw [ih, digitChar_eq (Nat.mod_lt n (by decide)),
        ← Nat.toDigits_of_base_le (by decide) (Nat.le_of_not_lt hn)]

theorem ofList_digits (n : Nat) : String.ofList (digits n) = toString n := by
  rw [digits_eq_toDigits]
  rfl

theorem exists_digits_eq_cons {n : Nat} (h : 0 < n) :
    ∃ c rest, digits n = c :: rest ∧ c ≠ '0' := by
  fun_induction digits n with
  | case1 n hn =>
      have hall : ∀ d : Fin 10, 0 < d.val → digitChar d ≠ '0' := by decide
      exact ⟨digitChar n, [], rfl, hall ⟨n, hn⟩ h⟩
  | case2 n hn ih =>
      have hpos : 0 < n / 10 := Nat.div_pos (Nat.le_of_not_lt hn) (by decide)
      obtain ⟨c, rest, hdigits, hc⟩ := ih hpos
      exact ⟨c, rest ++ [digitChar (n % 10)], by rw [hdigits]; rfl, hc⟩

theorem foldl_digits (n : Nat) :
    (digits n).foldl (fun m c => m * 10 + digitValue c) 0 = n := by
  fun_induction digits n with
  | case1 n hn =>
      simp [digitValue_digitChar hn]
  | case2 n _ ih =>
      have hlast : digitValue (digitChar (n % 10)) = n % 10 :=
        digitValue_digitChar (Nat.mod_lt n (by decide))
      rw [List.foldl_append, ih]
      simp only [List.foldl_cons, List.foldl_nil, hlast]
      omega

theorem natOfDigits?_digits (n : Nat) : natOfDigits? (digits n) = some n := by
  have hne : (digits n).isEmpty = false := by
    simpa using digits_ne_nil n
  have hall : (digits n).all isAsciiDigit = true :=
    List.all_eq_true.mpr fun _ hc => isAsciiDigit_of_mem_digits hc
  simp [natOfDigits?, hne, hall, foldl_digits]

theorem length_digits_pos (n : Nat) : 0 < (digits n).length :=
  List.length_pos_iff.mpr (digits_ne_nil n)

theorem lt_pow_length_digits (n : Nat) : n < 10 ^ (digits n).length := by
  fun_induction digits n with
  | case1 n hn => exact hn
  | case2 n _ ih =>
      rw [List.length_append, List.length_singleton, Nat.pow_succ]
      omega

theorem pow_length_digits_le {n : Nat} (h : 0 < n) : 10 ^ ((digits n).length - 1) ≤ n := by
  fun_induction digits n with
  | case1 n hn => exact h
  | case2 n hn ih =>
      have hinit := ih (Nat.div_pos (Nat.le_of_not_lt hn) (by decide))
      have hlength : (digits (n / 10)).length = (digits (n / 10)).length - 1 + 1 :=
        (Nat.sub_add_cancel (length_digits_pos _)).symm
      rw [List.length_append, List.length_singleton, Nat.add_sub_cancel, hlength, Nat.pow_succ]
      omega

/-!
# Integers
-/

/-- A minus sign in front of what is negative, then the digits of the magnitude, with no zero in
front but a lone one. -/
def IsNumeral (n : Int) (cs : List Char) : Prop :=
  ∃ ds, cs = (if n < 0 then ['-'] else []) ++ ds ∧ natOfDigits? ds = some n.natAbs ∧
    (ds.head? = some '0' → ds = ['0'])

theorem digits_of_head_zero {n : Nat} (h : (digits n).head? = some '0') : digits n = ['0'] := by
  rcases Nat.eq_zero_or_pos n with rfl | hpos
  · rw [digits]
    rfl
  · obtain ⟨c, rest, hdigits, hc⟩ := exists_digits_eq_cons hpos
    rw [hdigits] at h
    exact absurd (Option.some.inj h) hc

theorem isNumeral_intDigits (n : Int) : IsNumeral n (intDigits n) := by
  cases n with
  | ofNat n => exact ⟨digits n, rfl, natOfDigits?_digits n, digits_of_head_zero⟩
  | negSucc n =>
      refine ⟨digits (n + 1), ?_, natOfDigits?_digits (n + 1), digits_of_head_zero⟩
      rw [if_pos (Int.negSucc_lt_zero n)]
      rfl

theorem ofList_intDigits (n : Int) : String.ofList (intDigits n) = toString n := by
  cases n with
  | ofNat n => exact ofList_digits n
  | negSucc n =>
      show String.ofList ('-' :: digits (n + 1)) = "-" ++ toString (n + 1)
      rw [← ofList_digits, ← String.ofList_append]
      rfl

end Text
end Parley
