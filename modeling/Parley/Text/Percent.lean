import Parley.Text.Hex
import Parley.Text.Utf8

/-!
# Percent-encoding

A `%` followed by two hexadecimal digits stands for one byte; a `%` that is
not stays as it is. In form data `+` stands for a space.
-/

namespace Parley
namespace Text
namespace Percent

def decodeBytes : List UInt8 → List UInt8
  | [] => []
  | c :: rest =>
    if c = 37 then
      match rest with
      | a :: b :: more =>
        match Hex.value? (Char.ofNat a.toNat), Hex.value? (Char.ofNat b.toNat) with
        | some x, some y => UInt8.ofNat (16 * x + y) :: decodeBytes more
        | _, _ => c :: decodeBytes (a :: b :: more)
      | short => c :: decodeBytes short
    else c :: decodeBytes rest

def decodeSegment? (s : String) : Option String :=
  Utf8.decode? (decodeBytes (Utf8.encode s))

def decodeField (s : String) : String :=
  Utf8.decodeLenient
    (decodeBytes ((Utf8.encode s).map fun b => if b = 43 then 32 else b))

def formFields (s : String) : List (String × String) :=
  (s.splitOn "&").filterMap fun piece =>
    if piece.isEmpty then none
    else
      match piece.splitOn "=" with
      | [] => none
      | name :: rest => some (decodeField name, decodeField ("=".intercalate rest))

end Percent
end Text
end Parley
