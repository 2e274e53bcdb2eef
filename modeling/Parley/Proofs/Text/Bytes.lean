import Mathlib.Data.Nat.Basic

/-!
# Places in the bytes of a text

A text is looked through byte by byte. Where the bytes of a string that is not
empty are found, the string itself stands there: it begins and ends at boundaries
of characters.
-/

namespace Parley
namespace Text

/-- A character begins with this byte of the text, or the text ends before it. -/
def IsBoundary (text : String) (n : Nat) : Prop :=
  (String.Pos.Raw.mk n).IsValid text

def FoundAt (text sought : String) (n : Nat) : Prop :=
  text.toByteArray.extract n (n + sought.utf8ByteSize) = sought.toByteArray

/-- A part of a text from one byte up to another, cut at boundaries of characters. -/
structure IsSlice (text part : String) (start stop : Nat) : Prop where
  bytes_eq : text.toByteArray.extract start stop = part.toByteArray
  begins : IsBoundary text start
  ends : IsBoundary text stop

variable {text sought : String} {n : Nat}

/-!
# Boundaries
-/

theorem isBoundary_iff :
    IsBoundary text n ↔ ∃ front back, text = front ++ back ∧ front.utf8ByteSize = n := by
  rw [IsBoundary, String.Pos.Raw.isValid_iff_exists_append]
  constructor
  · rintro ⟨front, back, htext, hn⟩
    exact ⟨front, back, htext, (congrArg String.Pos.Raw.byteIdx hn).symm⟩
  · rintro ⟨front, back, htext, rfl⟩
    exact ⟨front, back, htext, rfl⟩

theorem isBoundary_append (front back : String) :
    IsBoundary (front ++ back) front.utf8ByteSize :=
  isBoundary_iff.mpr ⟨front, back, rfl, rfl⟩

theorem extract_zero_append (front back : String) :
    (front ++ back).toByteArray.extract 0 front.utf8ByteSize = front.toByteArray := by
  rw [String.toByteArray_append]
  exact ByteArray.extract_append_eq_left rfl

theorem append_inj_of_size {front back front' back' : String}
    (h : front ++ back = front' ++ back') (hsize : front.utf8ByteSize = front'.utf8ByteSize) :
    front = front' ∧ back = back' := by
  have hfront : front = front' := by
    rw [← String.toByteArray_inj, ← extract_zero_append front back, h, hsize,
      extract_zero_append]
  rw [hfront] at h
  exact ⟨hfront, (String.append_right_inj front').mp h⟩

/-!
# Strings that are found
-/

theorem foundAt_append (front sought back : String) :
    FoundAt (front ++ sought ++ back) sought front.utf8ByteSize := by
  rw [FoundAt, String.append_assoc, String.toByteArray_append]
  have hbehind := ByteArray.extract_append_size_add' (a := front.toByteArray)
    (b := (sought ++ back).toByteArray) (i := 0) (j := sought.utf8ByteSize)
    front.size_toByteArray.symm
  rw [Nat.add_zero] at hbehind
  rw [hbehind, extract_zero_append]

theorem isSlice_append (front part back : String) :
    IsSlice (front ++ part ++ back) part front.utf8ByteSize (front ++ part).utf8ByteSize where
  bytes_eq := by
    rw [String.utf8ByteSize_append]
    exact foundAt_append front part back
  begins := by
    rw [String.append_assoc]
    exact isBoundary_append front (part ++ back)
  ends := isBoundary_append (front ++ part) back

section Found

variable (h : FoundAt text sought n) (hne : sought ≠ "")

include h hne

theorem FoundAt.le_size : n + sought.utf8ByteSize ≤ text.utf8ByteSize := by
  have hsize := congrArg ByteArray.size h
  rw [ByteArray.size_extract, String.size_toByteArray, String.size_toByteArray] at hsize
  have hpos : sought.utf8ByteSize ≠ 0 := by
    rwa [Ne, String.utf8ByteSize_eq_zero_iff]
  omega

theorem FoundAt.isBoundary :
    IsBoundary text n ∧ IsBoundary text (n + sought.utf8ByteSize) := by
  have hvalid : (text.toByteArray.extract n (n + sought.utf8ByteSize)).IsValidUTF8 := by
    rw [h]
    exact sought.isValidUTF8
  have hends := (String.Pos.Raw.isValidUTF8_extract_iff ⟨n⟩ ⟨n + sought.utf8ByteSize⟩
    (Nat.le_add_right n _) (h.le_size hne)).mp hvalid
  rcases hends with heq | hends
  · exfalso
    apply hne
    rw [← String.utf8ByteSize_eq_zero_iff]
    have hstop := congrArg String.Pos.Raw.byteIdx heq
    simpa using hstop
  · exact hends

theorem FoundAt.exists_append :
    ∃ front back, text = front ++ sought ++ back ∧ front.utf8ByteSize = n := by
  rcases h.isBoundary hne with ⟨hstart, hstop⟩
  rcases isBoundary_iff.mp hstart with ⟨front, rest, htext, hfront⟩
  rcases isBoundary_iff.mp hstop with ⟨upto, back, htext', hupto⟩
  have hupto_eq : upto = front ++ sought := by
    rw [← String.toByteArray_inj, ← extract_zero_append upto back, ← htext', hupto,
      ByteArray.extract_eq_extract_append_extract n (Nat.zero_le n) (Nat.le_add_right n _), h,
      String.toByteArray_append, htext, ← hfront, extract_zero_append]
  exact ⟨front, back, hupto_eq ▸ htext', hfront⟩

end Found

end Text
end Parley
