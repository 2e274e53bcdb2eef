/-!
# UTF-8

Reading bytes as UTF-8. The scan gives one item a character and one `none` for
each maximal ill-formed run; a strict reader refuses any `none`, a lenient one
puts U+FFFD in its place.
-/

namespace Parley
namespace Text
namespace Utf8

/-- A character under way: bytes still needed, range of the next one, bits so far. -/
structure Pending where
  need : Nat
  low : Nat
  high : Nat
  bits : Nat

def begin (b : UInt8) : List (Option Char) × Option Pending :=
  let n := b.toNat
  if n < 0x80 then ([some (Char.ofNat n)], none)
  else if n < 0xC2 then ([none], none)
  else if n < 0xE0 then ([], some ⟨1, 0x80, 0xBF, n - 0xC0⟩)
  else if n = 0xE0 then ([], some ⟨2, 0xA0, 0xBF, 0⟩)
  else if n = 0xED then ([], some ⟨2, 0x80, 0x9F, 0xD⟩)
  else if n < 0xF0 then ([], some ⟨2, 0x80, 0xBF, n - 0xE0⟩)
  else if n = 0xF0 then ([], some ⟨3, 0x90, 0xBF, 0⟩)
  else if n < 0xF4 then ([], some ⟨3, 0x80, 0xBF, n - 0xF0⟩)
  else if n = 0xF4 then ([], some ⟨3, 0x80, 0x8F, 4⟩)
  else ([none], none)

def scan : Option Pending → List UInt8 → List (Option Char)
  | none, [] => []
  | some _, [] => [none]
  | none, b :: bs => (begin b).1 ++ scan (begin b).2 bs
  | some p, b :: bs =>
    if p.low ≤ b.toNat ∧ b.toNat ≤ p.high then
      let bits := p.bits * 64 + b.toNat % 64
      if p.need = 1 then some (Char.ofNat bits) :: scan none bs
      else scan (some ⟨p.need - 1, 0x80, 0xBF, bits⟩) bs
    else none :: ((begin b).1 ++ scan (begin b).2 bs)

def decode? (bytes : List UInt8) : Option String :=
  ((scan none bytes).mapM id).map String.ofList

def decodeLenient (bytes : List UInt8) : String :=
  String.ofList ((scan none bytes).map (·.getD (Char.ofNat 0xFFFD)))

def encode (s : String) : List UInt8 :=
  s.toUTF8.toList

end Utf8
end Text
end Parley
