/-!
# Hexadecimal bytes

Two digits a byte, high half first. Writing uses lowercase letters; reading
takes both cases and refuses an odd count or any other character.
-/

namespace Parley
namespace Text
namespace Hex

def digit (n : Nat) : Char :=
  if n < 10 then Char.ofNat (48 + n) else Char.ofNat (87 + n)

def value? (c : Char) : Option Nat :=
  if '0' ≤ c && c ≤ '9' then some (c.toNat - 48)
  else if 'a' ≤ c && c ≤ 'f' then some (c.toNat - 87)
  else if 'A' ≤ c && c ≤ 'F' then some (c.toNat - 55)
  else none

def pair (b : UInt8) : List Char :=
  [digit (b.toNat / 16), digit (b.toNat % 16)]

def encode : List UInt8 → List Char
  | [] => []
  | b :: bs => pair b ++ encode bs

def decode? : List Char → Option (List UInt8)
  | [] => some []
  | [_] => none
  | a :: b :: rest =>
    match value? a, value? b with
    | some x, some y => (decode? rest).map (UInt8.ofNat (16 * x + y) :: ·)
    | _, _ => none

end Hex
end Text
end Parley
