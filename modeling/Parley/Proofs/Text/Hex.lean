import Parley.Text.Hex

/-!
# Hexadecimal digits and bytes

A digit of either case has a value below sixteen, and the lowercase digit of that value
is the digit in lowercase. So bytes are read back from what they are written as, and
what is read as bytes is written again in lowercase.
-/

namespace Parley
namespace Text
namespace Hex

def isLowerDigit (c : Char) : Bool :=
  ('0' ≤ c && c ≤ '9') || ('a' ≤ c && c ≤ 'f')

def isDigit (c : Char) : Bool :=
  isLowerDigit c || ('A' ≤ c && c ≤ 'F')

/-!
# One digit
-/

theorem value?_digit {n : Nat} (h : n < 16) : value? (digit n) = some n := by
  have hall : ∀ d : Fin 16, value? (digit d) = some d.val := by decide
  exact hall ⟨n, h⟩

theorem isLowerDigit_digit {n : Nat} (h : n < 16) : isLowerDigit (digit n) = true := by
  have hall : ∀ d : Fin 16, isLowerDigit (digit d) = true := by decide
  exact hall ⟨n, h⟩

theorem isSome_value? (c : Char) : (value? c).isSome = isDigit c := by
  unfold value? isDigit isLowerDigit
  split
  · simp_all
  · split
    · simp_all
    · split <;> simp_all

theorem toNat_lt_of_isDigit {c : Char} (h : isDigit c = true) : c.toNat < 103 := by
  have hrange : ∀ d : Char, d.toNat < 103 → c ≤ d → c.toNat < 103 := by
    intro d hd hc
    have hle : c.toNat ≤ d.toNat := hc
    exact Nat.lt_of_le_of_lt hle hd
  simp only [isDigit, isLowerDigit, Bool.or_eq_true, Bool.and_eq_true, decide_eq_true_eq] at h
  rcases h with (⟨-, h⟩ | ⟨-, h⟩) | ⟨-, h⟩
  · exact hrange '9' (by decide) h
  · exact hrange 'f' (by decide) h
  · exact hrange 'F' (by decide) h

theorem digit_of_value? {c : Char} {n : Nat} (h : value? c = some n) :
    n < 16 ∧ digit n = c.toLower := by
  have hall : ∀ k : Fin 103, ∀ m ∈ value? (Char.ofNat k),
      m < 16 ∧ digit m = (Char.ofNat k).toLower := by decide
  have hdigit : isDigit c = true := by
    rw [← isSome_value?, h]
    rfl
  have hc := hall ⟨c.toNat, toNat_lt_of_isDigit hdigit⟩ n
  rw [Char.ofNat_toNat] at hc
  exact hc h

theorem ne_hyphen_of_isLowerDigit {c : Char} (h : isLowerDigit c = true) : c ≠ '-' := by
  rintro rfl
  revert h
  decide

/-!
# Writing bytes
-/

theorem length_encode (bytes : List UInt8) : (encode bytes).length = 2 * bytes.length := by
  induction bytes with
  | nil => rfl
  | cons b bytes ih =>
      rw [encode, List.length_append, ih, List.length_cons]
      show 2 + 2 * bytes.length = _
      omega

theorem isLowerDigit_of_mem_encode {bytes : List UInt8} {c : Char} (h : c ∈ encode bytes) :
    isLowerDigit c = true := by
  induction bytes with
  | nil => cases h
  | cons b bytes ih =>
      rcases List.mem_append.mp h with hpair | hrest
      · have hhigh : b.toNat / 16 < 16 := by
          have := b.toNat_lt
          omega
        have hlow : b.toNat % 16 < 16 := Nat.mod_lt _ (by decide)
        have hdigits : c = digit (b.toNat / 16) ∨ c = digit (b.toNat % 16) := by
          simpa [pair] using hpair
        rcases hdigits with rfl | rfl
        · exact isLowerDigit_digit hhigh
        · exact isLowerDigit_digit hlow
      · exact ih hrest

/-!
# Reading bytes
-/

theorem decode?_encode (bytes : List UInt8) : decode? (encode bytes) = some bytes := by
  induction bytes with
  | nil => rfl
  | cons b bytes ih =>
      have hhigh : b.toNat / 16 < 16 := by
        have := b.toNat_lt
        omega
      have hlow : b.toNat % 16 < 16 := Nat.mod_lt _ (by decide)
      have hbyte : UInt8.ofNat (16 * (b.toNat / 16) + b.toNat % 16) = b := by
        rw [Nat.div_add_mod, UInt8.ofNat_toNat]
      change decode? (digit (b.toNat / 16) :: digit (b.toNat % 16) :: encode bytes) = _
      simp only [decode?, value?_digit hhigh, value?_digit hlow, ih, Option.map_some, hbyte]

theorem encode_injective {bytes more : List UInt8} (h : encode bytes = encode more) :
    bytes = more := by
  have hread : decode? (encode bytes) = decode? (encode more) := congrArg decode? h
  rw [decode?_encode, decode?_encode] at hread
  injection hread

theorem pair_of_value? {a b : Char} {x y : Nat} (ha : value? a = some x)
    (hb : value? b = some y) : pair (UInt8.ofNat (16 * x + y)) = [a.toLower, b.toLower] := by
  obtain ⟨hx, hax⟩ := digit_of_value? ha
  obtain ⟨hy, hby⟩ := digit_of_value? hb
  have hbyte : (UInt8.ofNat (16 * x + y)).toNat = 16 * x + y :=
    UInt8.toNat_ofNat_of_lt (by show 16 * x + y < 256; omega)
  have hhigh : (16 * x + y) / 16 = x := by omega
  have hlow : (16 * x + y) % 16 = y := by omega
  rw [pair, hbyte, hhigh, hlow, hax, hby]

theorem encode_of_decode? {cs : List Char} {bytes : List UInt8} (h : decode? cs = some bytes) :
    encode bytes = cs.map Char.toLower := by
  fun_induction decode? cs generalizing bytes with
  | case1 =>
      cases h
      rfl
  | case2 => cases h
  | case3 a b rest x y hb ha ih =>
      obtain ⟨more, hmore, rfl⟩ := Option.map_eq_some_iff.mp h
      rw [encode, pair_of_value? ha hb, ih hmore]
      rfl
  | case4 => cases h

theorem isSome_decode?_iff (cs : List Char) :
    (decode? cs).isSome = true ↔ cs.length % 2 = 0 ∧ cs.all isDigit = true := by
  fun_induction decode? cs with
  | case1 => simp
  | case2 => simp
  | case3 a b rest x y hb ha ih =>
      have hdigits : isDigit a = true ∧ isDigit b = true := by
        rw [← isSome_value?, ← isSome_value?, ha, hb]
        exact ⟨rfl, rfl⟩
      have hlength : (a :: b :: rest).length % 2 = rest.length % 2 := by
        simp only [List.length_cons]
        omega
      rw [Option.isSome_map, ih, hlength]
      simp [hdigits]
  | case4 a b rest hnone =>
      have hdigits : ¬ (isDigit a = true ∧ isDigit b = true) := by
        rintro ⟨ha, hb⟩
        rw [← isSome_value?] at ha hb
        obtain ⟨x, hx⟩ := Option.isSome_iff_exists.mp ha
        obtain ⟨y, hy⟩ := Option.isSome_iff_exists.mp hb
        exact hnone x y hx hy
      simp only [Option.isSome_none, Bool.false_eq_true, false_iff, List.all_cons,
        Bool.and_eq_true]
      rintro ⟨-, ha, hb, -⟩
      exact hdigits ⟨ha, hb⟩

end Hex
end Text
end Parley
