import Parley.Json.Write
import Parley.Json.Literal
import Parley.Proofs.Number.Shortest
import Parley.Proofs.Text.Digit

/-!
# Written numbers

A literal that keeps the grammar is read back from its own text, whatever follows
but a character that would go on with it. Every number is written as such a
literal, and an integer literal has the integer that it was written for.
-/

namespace Parley
namespace Json

open Text

def EndsNumber (cs : List Char) : Prop :=
  ∀ c rest, cs = c :: rest → isAsciiDigit c = false ∧ c ≠ '.' ∧ c ≠ 'e' ∧ c ≠ 'E'

theorem endsNumber_nil : EndsNumber [] := by
  intro c rest h
  cases h

theorem endsNumber_cons {c : Char} {rest : List Char}
    (h : isAsciiDigit c = false ∧ c ≠ '.' ∧ c ≠ 'e' ∧ c ≠ 'E') : EndsNumber (c :: rest) := by
  intro d more hcons
  cases hcons
  exact h

theorem span_digits {ds rest : List Char} (hds : ∀ c ∈ ds, isAsciiDigit c = true)
    (hrest : ∀ c more, rest = c :: more → isAsciiDigit c = false) :
    (ds ++ rest).takeWhile isAsciiDigit = ds ∧ (ds ++ rest).dropWhile isAsciiDigit = rest := by
  have hstop : rest.takeWhile isAsciiDigit = [] ∧ rest.dropWhile isAsciiDigit = rest := by
    cases rest with
    | nil => exact ⟨rfl, rfl⟩
    | cons c more => simp [hrest c more rfl]
  rw [List.takeWhile_append_of_pos hds, List.dropWhile_append_of_pos hds, hstop.1, hstop.2]
  exact ⟨List.append_nil ds, rfl⟩

/-!
# Literals and their text
-/

namespace Literal

def signText (l : Literal) : List Char :=
  if l.negative then ['-'] else []

def fractionText (l : Literal) : List Char :=
  if l.fraction = [] then [] else '.' :: l.fraction

def exponentText (l : Literal) : List Char :=
  match l.exponent with
  | none => []
  | some (negative, ds) => 'e' :: (if negative then '-' else '+') :: ds

def text (l : Literal) : List Char :=
  l.signText ++ (l.whole ++ (l.fractionText ++ l.exponentText))

structure IsProper (l : Literal) : Prop where
  whole : Token.isWhole l.whole = true
  wholeDigits : ∀ c ∈ l.whole, isAsciiDigit c = true
  fractionDigits : ∀ c ∈ l.fraction, isAsciiDigit c = true
  exponent : ∀ negative ds, l.exponent = some (negative, ds) →
    ds ≠ [] ∧ ∀ c ∈ ds, isAsciiDigit c = true

variable {l : Literal} {rest : List Char}

theorem exponent?_text (hl : l.IsProper) (hrest : EndsNumber rest) :
    Token.exponent? (l.exponentText ++ rest) = some (l.exponent, rest) := by
  cases hexp : l.exponent with
  | none =>
      simp only [exponentText, hexp, List.nil_append]
      cases rest with
      | nil => rfl
      | cons c more =>
          obtain ⟨-, -, he, hE⟩ := hrest c more rfl
          simp [Token.exponent?, he, hE]
  | some signed =>
      obtain ⟨negative, ds⟩ := signed
      obtain ⟨hne, hds⟩ := hl.exponent negative ds hexp
      obtain ⟨htake, hdrop⟩ := span_digits hds fun c more h => (hrest c more h).1
      have hempty : ds.isEmpty = false := by simpa using hne
      cases negative <;>
        simp [exponentText, hexp, Token.exponent?, Token.exponentSign, htake, hdrop, hempty]

theorem exponentText_not_digit (hrest : EndsNumber rest) {c : Char} {more : List Char}
    (h : l.exponentText ++ rest = c :: more) : isAsciiDigit c = false ∧ c ≠ '.' := by
  cases hexp : l.exponent with
  | none =>
      rw [exponentText, hexp] at h
      obtain ⟨hdigit, hpoint, -⟩ := hrest c more h
      exact ⟨hdigit, hpoint⟩
  | some signed =>
      rw [exponentText, hexp] at h
      injection h with hc
      rw [← hc]
      decide

theorem fraction?_text (hl : l.IsProper) (hrest : EndsNumber rest) :
    Token.fraction? (l.fractionText ++ (l.exponentText ++ rest)) =
      some (l.fraction, l.exponentText ++ rest) := by
  by_cases hf : l.fraction = []
  · rw [fractionText, if_pos hf, List.nil_append, hf]
    cases hcs : l.exponentText ++ rest with
    | nil => rfl
    | cons c more =>
        have hpoint : c ≠ '.' := (exponentText_not_digit hrest hcs).2
        simp [Token.fraction?, hpoint]
  · obtain ⟨htake, hdrop⟩ := span_digits hl.fractionDigits
      fun c more h => (exponentText_not_digit (l := l) hrest h).1
    have hempty : l.fraction.isEmpty = false := by simpa using hf
    rw [fractionText, if_neg hf]
    simp [Token.fraction?, htake, hdrop, hempty]

theorem fractionText_not_digit (hrest : EndsNumber rest) {c : Char} {more : List Char}
    (h : l.fractionText ++ (l.exponentText ++ rest) = c :: more) : isAsciiDigit c = false := by
  by_cases hf : l.fraction = []
  · rw [fractionText, if_pos hf] at h
    exact (exponentText_not_digit hrest h).1
  · rw [fractionText, if_neg hf] at h
    injection h with hc
    rw [← hc]
    decide

theorem whole_ne_nil (hl : l.IsProper) : l.whole ≠ [] := by
  intro h
  have hwhole := hl.whole
  rw [h] at hwhole
  cases hwhole

theorem sign_text (hl : l.IsProper) (tail : List Char) :
    Token.sign (l.signText ++ (l.whole ++ tail)) = (l.negative, l.whole ++ tail) := by
  cases hneg : l.negative with
  | true => simp [signText, hneg, Token.sign]
  | false =>
      obtain ⟨c, ds, hwhole⟩ := List.exists_cons_of_ne_nil (whole_ne_nil hl)
      have hdigit : isAsciiDigit c = true := hl.wholeDigits c (by rw [hwhole]; simp)
      have hminus : c ≠ '-' := by
        rintro rfl
        revert hdigit
        decide
      simp [signText, hneg, hwhole, Token.sign, hminus]

/-- A proper literal is read back from its text. -/
theorem number?_text (hl : l.IsProper) (hrest : EndsNumber rest) :
    Token.number? (l.text ++ rest) = some (l, rest) := by
  obtain ⟨htake, hdrop⟩ := span_digits hl.wholeDigits
    fun c more h => fractionText_not_digit (l := l) hrest h
  have htext : l.text ++ rest =
      l.signText ++ (l.whole ++ (l.fractionText ++ (l.exponentText ++ rest))) := by
    simp [text]
  rw [htext]
  simp only [Token.number?, sign_text hl, htake, hdrop, hl.whole, if_true,
    fraction?_text hl hrest, exponent?_text hl hrest]

theorem exists_text_eq_cons (hl : l.IsProper) :
    ∃ c more, l.text = c :: more ∧ (c = '-' ∨ isAsciiDigit c = true) := by
  cases hneg : l.negative with
  | true => exact ⟨'-', _, by simp only [text, signText, hneg]; rfl, Or.inl rfl⟩
  | false =>
      obtain ⟨c, ds, hwhole⟩ := List.exists_cons_of_ne_nil (whole_ne_nil hl)
      have hdigit : isAsciiDigit c = true := hl.wholeDigits c (by rw [hwhole]; simp)
      exact ⟨c, _, by simp only [text, signText, hneg, hwhole]; rfl, Or.inr hdigit⟩

end Literal

/-!
# Integers
-/

theorem isWhole_digits_append {n : Nat} (h : 0 < n) (zeros : List Char) :
    Token.isWhole (digits n ++ zeros) = true := by
  obtain ⟨c, more, hdigits, hc⟩ := exists_digits_eq_cons h
  rw [hdigits]
  simp [Token.isWhole, hc]

theorem isWhole_digits (n : Nat) : Token.isWhole (digits n) = true := by
  rcases Nat.eq_zero_or_pos n with rfl | hpos
  · rw [digits]
    rfl
  · simpa using isWhole_digits_append hpos []

namespace Literal

def ofInt (n : Int) : Literal :=
  ⟨decide (n < 0), digits n.natAbs, [], none⟩

theorem isProper_plain {negative : Bool} {whole fraction : List Char}
    (hwhole : Token.isWhole whole = true) (hdigits : ∀ c ∈ whole, isAsciiDigit c = true)
    (hfraction : ∀ c ∈ fraction, isAsciiDigit c = true) :
    (Literal.mk negative whole fraction none).IsProper where
  whole := hwhole
  wholeDigits := hdigits
  fractionDigits := hfraction
  exponent _ _ h := by cases h

theorem isProper_ofInt (n : Int) : (ofInt n).IsProper :=
  isProper_plain (isWhole_digits n.natAbs) (fun _ hc => isAsciiDigit_of_mem_digits hc)
    (fun _ hc => by cases hc)

theorem text_ofInt (n : Int) : (ofInt n).text = intDigits n := by
  cases n with
  | ofNat n =>
      simp [text, signText, fractionText, exponentText, ofInt, intDigits]
  | negSucc n =>
      have hsign : Int.negSucc n < 0 := Int.negSucc_lt_zero n
      simp [text, signText, fractionText, exponentText, ofInt, hsign, intDigits]

theorem le_foldl_digits (ds : List Char) (n : Nat) :
    n ≤ ds.foldl (fun n c => n * 10 + digitValue c) n := by
  induction ds generalizing n with
  | nil => exact Nat.le_refl n
  | cons d ds ih =>
      have hstep : n ≤ n * 10 + digitValue d := by omega
      exact Nat.le_trans hstep (ih _)

theorem absorb_of_foldl_lt {ds : List Char} {n : Nat}
    (h : ds.foldl (fun n c => n * 10 + digitValue c) n < wordBound) :
    absorb n ds = (ds.foldl (fun n c => n * 10 + digitValue c) n, []) := by
  induction ds generalizing n with
  | nil => rfl
  | cons d ds ih =>
      have hnext : n * 10 + digitValue d < wordBound :=
        Nat.lt_of_le_of_lt (le_foldl_digits ds _) h
      rw [absorb, if_pos hnext]
      exact ih h

theorem absorb_digits {n : Nat} (h : n < wordBound) : absorb 0 (digits n) = (n, []) := by
  have hfold := foldl_digits n
  rw [absorb_of_foldl_lt (by rw [hfold]; exact h), hfold]

theorem number?_ofInt {n : Int} (hlow : -9223372036854775808 ≤ n) (hhigh : n < wordBound) :
    (ofInt n).number? = some (.int n) := by
  have habs : n.natAbs < wordBound := by
    unfold wordBound at hhigh ⊢
    omega
  have hint : (ofInt n).int? = some n := by
    by_cases hneg : n < 0
    · have hmagnitude : 0 < n.natAbs ∧ n.natAbs ≤ 9223372036854775808 := by omega
      have hvalue : -(n.natAbs : Int) = n := by omega
      simp only [int?, ofInt, isPlain, absorb_digits habs]
      simp only [List.isEmpty_nil, Option.isNone_none, Bool.and_self, if_true, hneg, decide_true,
        if_pos hmagnitude, hvalue]
    · have hvalue : (n.natAbs : Int) = n := by omega
      simp only [int?, ofInt, isPlain, absorb_digits habs]
      simp [hneg, hvalue]
  rw [number?, hint]

end Literal
/-!
# Decimals
-/

namespace Literal

open Floating

def leadOf (d : Decimal) : Int :=
  (digits d.digits).length - 1 + d.exponent

def ofPositional (negative : Bool) (d : Decimal) : Literal :=
  if 0 ≤ d.exponent then
    ⟨negative, digits d.digits ++ List.replicate d.exponent.toNat '0', ['0'], none⟩
  else if 0 ≤ leadOf d then
    ⟨negative, (digits d.digits).take ((leadOf d).toNat + 1),
      (digits d.digits).drop ((leadOf d).toNat + 1), none⟩
  else
    ⟨negative, ['0'], List.replicate ((-leadOf d).toNat - 1) '0' ++ digits d.digits, none⟩

def ofScientific (negative : Bool) (d : Decimal) : Literal :=
  ⟨negative, (digits d.digits).take 1, (digits d.digits).drop 1,
    some (decide (leadOf d < 0), digits (leadOf d).natAbs)⟩

def ofDecimal (layout : Layout) (negative : Bool) (d : Decimal) : Literal :=
  if layout.positionalFrom ≤ leadOf d ∧ leadOf d < layout.positionalBelow then
    ofPositional negative d
  else ofScientific negative d

theorem isAsciiDigit_of_mem_replicate {n : Nat} {c : Char} (h : c ∈ List.replicate n '0') :
    isAsciiDigit c = true := by
  rw [List.eq_of_mem_replicate h]
  decide

theorem isWhole_take_digits {n k : Nat} (h : 0 < n) :
    Token.isWhole ((digits n).take (k + 1)) = true := by
  obtain ⟨c, more, hdigits, hc⟩ := exists_digits_eq_cons h
  rw [hdigits]
  simp [Token.isWhole, hc]

theorem isProper_ofPositional (negative : Bool) {d : Decimal}
    (hd : d.digits = 0 → d.exponent = 0) : (ofPositional negative d).IsProper := by
  have hdigits : ∀ c ∈ digits d.digits, isAsciiDigit c = true :=
    fun _ hc => isAsciiDigit_of_mem_digits hc
  have hzeros : ∀ n, ∀ c ∈ List.replicate n '0', isAsciiDigit c = true :=
    fun _ _ hc => isAsciiDigit_of_mem_replicate hc
  unfold ofPositional
  split
  · apply isProper_plain
    · rcases Nat.eq_zero_or_pos d.digits with hzero | hpos
      · rw [hd hzero]
        simpa using isWhole_digits d.digits
      · exact isWhole_digits_append hpos _
    · exact List.forall_mem_append.mpr ⟨hdigits, hzeros _⟩
    · exact hzeros 1
  · rename_i hexponent
    have hpos : 0 < d.digits := by
      refine Nat.pos_of_ne_zero fun hzero => hexponent ?_
      exact Int.le_of_eq (hd hzero).symm
    split
    · apply isProper_plain (isWhole_take_digits hpos)
      · exact fun c hc => hdigits c (List.mem_of_mem_take hc)
      · exact fun c hc => hdigits c (List.mem_of_mem_drop hc)
    · apply isProper_plain rfl (hzeros 1)
      exact List.forall_mem_append.mpr ⟨hzeros _, hdigits⟩

theorem isProper_ofScientific (negative : Bool) (d : Decimal) :
    (ofScientific negative d).IsProper where
  whole := by
    obtain ⟨c, more, hdigits⟩ := List.exists_cons_of_ne_nil (digits_ne_nil d.digits)
    simp [ofScientific, hdigits, Token.isWhole]
  wholeDigits _ hc := isAsciiDigit_of_mem_digits (List.mem_of_mem_take hc)
  fractionDigits _ hc := isAsciiDigit_of_mem_digits (List.mem_of_mem_drop hc)
  exponent _ _ h := by
    cases h
    exact ⟨digits_ne_nil _, fun _ hc => isAsciiDigit_of_mem_digits hc⟩

theorem isProper_ofDecimal (layout : Layout) (negative : Bool) {d : Decimal}
    (hd : d.digits = 0 → d.exponent = 0) : (ofDecimal layout negative d).IsProper := by
  unfold ofDecimal
  split
  · exact isProper_ofPositional negative hd
  · exact isProper_ofScientific negative d

theorem text_ofPositional (negative : Bool) (d : Decimal) :
    (ofPositional negative d).text = (if negative then ['-'] else []) ++ positional d := by
  have hne := digits_ne_nil d.digits
  unfold ofPositional positional
  by_cases hexponent : 0 ≤ d.exponent
  · simp [hexponent, text, signText, fractionText, exponentText]
  · by_cases hlead : 0 ≤ leadOf d
    · have hrest : (digits d.digits).drop ((leadOf d).toNat + 1) ≠ [] := by
        rw [ne_eq, List.drop_eq_nil_iff]
        unfold leadOf at hlead ⊢
        omega
      have hlead' : 0 ≤ ((digits d.digits).length : Int) - 1 + d.exponent := hlead
      simp only [if_neg hexponent, if_pos hlead, if_pos hlead', text, signText, fractionText,
        exponentText, if_neg hrest, List.append_nil]
      rfl
    · have hlead' : ¬ 0 ≤ ((digits d.digits).length : Int) - 1 + d.exponent := hlead
      simp only [if_neg hexponent, if_neg hlead, if_neg hlead', text, signText, fractionText,
        exponentText, List.append_eq_nil_iff, hne, and_false, if_false, List.append_nil]
      rfl

theorem text_ofScientific (negative : Bool) (d : Decimal) :
    (ofScientific negative d).text = (if negative then ['-'] else []) ++ scientific d := by
  simp only [ofScientific, scientific, text, signText, fractionText, exponentText,
    List.isEmpty_iff, List.append_assoc, decide_eq_true_eq]
  rfl

theorem text_ofDecimal (layout : Layout) (negative : Bool) (d : Decimal) :
    (ofDecimal layout negative d).text =
      (if negative then ['-'] else []) ++ layout.write d := by
  unfold ofDecimal Layout.write
  by_cases hplace : layout.positionalFrom ≤ leadOf d ∧ leadOf d < layout.positionalBelow
  · rw [if_pos hplace, text_ofPositional]
    exact congrArg _ (if_pos hplace).symm
  · rw [if_neg hplace, text_ofScientific]
    exact congrArg _ (if_neg hplace).symm

end Literal

/-- The literal that a number is written as; what is not finite is written as null. -/
def Number.literal? : Number → Option Literal
  | .int n => some (.ofInt n)
  | .real (.finite negative m q) =>
    some (.ofDecimal layout negative (Floating.shortest .binary64 m q))
  | .real _ => none

theorem Number.isProper_of_literal? {n : Number} {l : Literal} (h : n.literal? = some l) :
    l.IsProper := by
  cases n with
  | int n =>
      cases h
      exact Literal.isProper_ofInt n
  | real x =>
      cases x with
      | finite negative m q =>
          cases h
          exact Literal.isProper_ofDecimal layout negative Floating.exponent_shortest_of_zero
      | infinite negative => cases h
      | nan => cases h

theorem Number.write_eq (n : Number) :
    Write.number n = ((n.literal?).map Literal.text).getD ['n', 'u', 'l', 'l'] := by
  cases n with
  | int n => exact (Literal.text_ofInt n).symm
  | real x =>
      cases x with
      | finite negative m q => exact (Literal.text_ofDecimal layout negative _).symm
      | infinite negative => rfl
      | nan => rfl

end Json
end Parley
