import Parley.Naming.Content
import Parley.Proofs.Text.Hex
import Parley.Text.Blank

/-!
# The hexadecimal form of keys

Bytes are read back from their digits, so keys are told apart by their text. A text is
read as a key exactly if it is sixty-four digits, of either case, and the key is written
as that text in lowercase. No other text is a key, and the refusal gives it back.
-/

namespace Parley
namespace ContentKey

theorem ofBytes?_toList (k : ContentKey) : ofBytes? k.bytes.toList = some k := by
  cases k with
  | mk bytes =>
      cases bytes with
      | mk bytes hsize => simp [ofBytes?, hsize]

theorem ofHex_toHex (k : ContentKey) : ofHex k.toHex = .ok k := by
  simp [ofHex, toHex, Text.Hex.decode?_encode, ofBytes?_toList]

theorem toHex_injective {k l : ContentKey} (h : k.toHex = l.toHex) : k = l := by
  have hread : ofHex k.toHex = ofHex l.toHex := congrArg ofHex h
  rw [ofHex_toHex, ofHex_toHex] at hread
  injection hread

/-!
# Which texts are keys
-/

def IsKeyText (isDigit : Char → Bool) (s : String) : Prop :=
  s.length = 64 ∧ s.toList.all isDigit = true

theorem isKeyText_toHex (k : ContentKey) : IsKeyText Text.Hex.isLowerDigit k.toHex := by
  constructor
  · rw [toHex, String.length_ofList, Text.Hex.length_encode, Vector.length_toList]
  · rw [toHex, String.toList_ofList, List.all_eq_true]
    exact fun _ hc => Text.Hex.isLowerDigit_of_mem_encode hc

theorem ofBytes?_eq_some_iff {bytes : List UInt8} {k : ContentKey} :
    ofBytes? bytes = some k ↔ bytes = k.bytes.toList := by
  constructor
  · intro h
    rw [ofBytes?] at h
    split at h
    · cases h
      rfl
    · cases h
  · rintro rfl
    exact ofBytes?_toList k

theorem isSome_ofBytes? (bytes : List UInt8) :
    (ofBytes? bytes).isSome = true ↔ bytes.length = 32 := by
  unfold ofBytes?
  split <;> simp_all

theorem ofHex_eq_ok_iff {s : String} {k : ContentKey} :
    ofHex s = .ok k ↔ Text.Hex.decode? s.toList = some k.bytes.toList := by
  have hread : (Text.Hex.decode? s.toList).bind ofBytes? = some k ↔
      Text.Hex.decode? s.toList = some k.bytes.toList := by
    rw [Option.bind_eq_some_iff]
    simp only [ofBytes?_eq_some_iff, exists_eq_right]
  rw [← hread, ofHex]
  cases (Text.Hex.decode? s.toList).bind ofBytes? <;> simp

theorem exists_ofHex_iff {s : String} :
    (∃ k, ofHex s = .ok k) ↔ IsKeyText Text.Hex.isDigit s := by
  have hlength : s.toList.length = s.length := String.length_toList
  constructor
  · rintro ⟨k, hk⟩
    have hread := ofHex_eq_ok_iff.mp hk
    obtain ⟨-, hdigits⟩ := (Text.Hex.isSome_decode?_iff s.toList).mp (by rw [hread]; rfl)
    have hcount := congrArg List.length (Text.Hex.encode_of_decode? hread)
    rw [Text.Hex.length_encode, Vector.length_toList, List.length_map, hlength] at hcount
    exact ⟨hcount.symm, hdigits⟩
  · rintro ⟨hcount, hdigits⟩
    have hsome : (Text.Hex.decode? s.toList).isSome = true :=
      (Text.Hex.isSome_decode?_iff s.toList).mpr ⟨by rw [hlength, hcount], hdigits⟩
    obtain ⟨bytes, hread⟩ := Option.isSome_iff_exists.mp hsome
    have hwritten := congrArg List.length (Text.Hex.encode_of_decode? hread)
    rw [Text.Hex.length_encode, List.length_map, hlength, hcount] at hwritten
    have hbytes : (ofBytes? bytes).isSome = true := (isSome_ofBytes? bytes).mpr (by omega)
    obtain ⟨k, hk⟩ := Option.isSome_iff_exists.mp hbytes
    rw [ofBytes?_eq_some_iff] at hk
    exact ⟨k, ofHex_eq_ok_iff.mpr (by rw [hread, hk])⟩

theorem toHex_of_ofHex {s : String} {k : ContentKey} (h : ofHex s = .ok k) :
    k.toHex = Text.lowerAscii s := by
  rw [toHex, Text.Hex.encode_of_decode? (ofHex_eq_ok_iff.mp h)]
  rfl

theorem ofHex_eq_error {s : String} (h : ¬ ∃ k, ofHex s = .ok k) :
    ofHex s = .error (.invalidKey s) := by
  cases hread : (Text.Hex.decode? s.toList).bind ofBytes? with
  | none => rw [ofHex, hread]
  | some k =>
      refine absurd ⟨k, ?_⟩ h
      rw [ofHex, hread]

/-- Keys and their texts determine each other: every key is read back from its own text, which is
sixty-four lowercase digits; a text is read as a key if and only if it is sixty-four digits of
either case, and then as the one key whose text is this text in lowercase; every other text is
refused by itself. -/
theorem hex_codec (k : ContentKey) (s : String) :
    (ofHex k.toHex = .ok k ∧ IsKeyText Text.Hex.isLowerDigit k.toHex) ∧
      ((∃ l, ofHex s = .ok l) ↔ IsKeyText Text.Hex.isDigit s) ∧
      (∀ l, ofHex s = .ok l ↔ IsKeyText Text.Hex.isDigit s ∧ l.toHex = Text.lowerAscii s) ∧
      (∀ e, ofHex s = .error e ↔ ¬ IsKeyText Text.Hex.isDigit s ∧ e = .invalidKey s) := by
  refine ⟨⟨ofHex_toHex k, isKeyText_toHex k⟩, exists_ofHex_iff, fun l => ?_, fun e => ?_⟩
  · constructor
    · intro h
      exact ⟨exists_ofHex_iff.mp ⟨l, h⟩, toHex_of_ofHex h⟩
    · rintro ⟨htext, hl⟩
      obtain ⟨m, hm⟩ := exists_ofHex_iff.mpr htext
      have hsame : l = m := toHex_injective (hl.trans (toHex_of_ofHex hm).symm)
      rw [hm, hsame]
  · rw [← exists_ofHex_iff]
    constructor
    · intro h
      have hnone : ¬ ∃ l, ofHex s = .ok l := by
        rintro ⟨l, hl⟩
        rw [h] at hl
        cases hl
      have herror := ofHex_eq_error hnone
      rw [h] at herror
      injection herror with herror
      exact ⟨hnone, herror⟩
    · rintro ⟨hnone, rfl⟩
      exact ofHex_eq_error hnone

end ContentKey
end Parley
