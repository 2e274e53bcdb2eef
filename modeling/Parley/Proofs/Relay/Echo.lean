import Parley.Proofs.Json.Generic
import Parley.Proofs.Number.Whole
import Parley.Proofs.Relay.Script

/-!
# Whole times are echoed as integers

The time of a ping is eight bytes of floating point. Where it is a whole number that has
no neighbour it could be taken for, the pong writes it as the plain numeral of that
number, so that the time is read back from the pong, whatever bits it came in.
-/

namespace Parley
namespace Pong

open Json

/-- What a reader makes of the pong that gives this integer back. -/
def wholeAsRead (n : ℤ) : Value :=
  .object [("timestamp", .number (.int n)), ("type", .string "PONG")]

variable {x : Floating} {n : ℤ}

theorem toJson_of_whole (h : x.toInt? = some n) (hsafe : n.natAbs ≤ maxSafe) :
    (ofTime x).toJson = .object [("type", .string "PONG"), ("timestamp", .number (.int n))] := by
  rw [toJson, ofTime, timeNumber, h]
  simp only [if_pos hsafe]

theorem write_of_whole (h : x.toInt? = some n) (hsafe : n.natAbs ≤ maxSafe) :
    (ofTime x).write = "\x7b\"type\":\"PONG\",\"timestamp\":" ++ toString n ++ "\x7d" := by
  rw [write, toJson_of_whole h hsafe, ← Text.ofList_intDigits, Value.write, ← String.toList_inj]
  simp only [String.toList_append, String.toList_ofList]
  rfl

theorem parse?_of_whole (h : x.toInt? = some n) (hsafe : n.natAbs ≤ maxSafe) :
    parse? (ofTime x).write = some (wholeAsRead n) := by
  have hword : n.natAbs ≤ 9007199254740991 := hsafe
  have hread : (Value.number (.int n)).IsReadAs 126 (.number (.int n)) := by
    show ((Literal.ofInt n).number?).map Value.number = _
    rw [Literal.number?_ofInt (by omega) (by unfold Literal.wordBound; omega)]
    rfl
  have hmembers := (Value.areReadAs_nil 126).cons "timestamp" hread
    |>.cons "type" (Value.isReadAs_string 126 "PONG")
  rw [write, parse?_write, toJson_of_whole h hsafe]
  apply Value.isReadAs_object hmembers
  simp +decide only [sortMembers, List.foldl, insertMember, if_true, if_false]

theorem wholeAsRead_injective : Function.Injective wholeAsRead := by
  intro n k h
  simpa [wholeAsRead] using h

end Pong

namespace Relay

/-- A ping whose time is this integer, which is at most fifty-three bits long. -/
structure IsWholePing (bytes : List UInt8) (n : ℤ) : Prop where
  length : 24 ≤ bytes.length
  time : Floating.binary64?
    (Nat.ofDigits 256 (((bytes.drop 16).take 8).reverse.map UInt8.toNat)) = some (n : ℚ)
  safe : |n| ≤ 2 ^ 53 - 1

namespace IsWholePing

variable {bytes more : List UInt8} {n k : ℤ}

theorem toInt?_pingTime (h : IsWholePing bytes n) : (Event.pingTime bytes).toInt? = some n := by
  rw [Floating.toInt?_eq_some_iff, Event.pingTime, Floating.rational?_ofBits64, h.time]

theorem natAbs_le (h : IsWholePing bytes n) : n.natAbs ≤ Pong.maxSafe := by
  have hsafe := h.safe
  rw [Int.abs_eq_natAbs] at hsafe
  unfold Pong.maxSafe
  omega

theorem replies (h : IsWholePing bytes n) (peer : Option PeerId) :
    ((Connection.live peer).step (.binary bytes)).2.filterMap Action.reply? =
      [(Pong.ofTime (Event.pingTime bytes)).write] := by
  rw [Connection.step_live_eq peer rfl, Event.reply?_script, Event.answer?, if_pos h.length]
  rfl

end IsWholePing

/-- A ping whose time is a whole number of at most fifty-three bits, of either sign or zero, is
answered with one pong that gives this number as its plain numeral. The numeral has neither
fraction nor exponent nor needless zeros, the number is read back from the pong, and two such
pings get one answer if and only if their times are the same number. -/
theorem whole_time_echoed {bytes more : List UInt8} {n k : ℤ} (h : IsWholePing bytes n)
    (h' : IsWholePing more k) (peer other : Option PeerId) :
    let replies := ((Connection.live peer).step (.binary bytes)).2.filterMap Action.reply?
    let pong := "\x7b\"type\":\"PONG\",\"timestamp\":" ++ toString n ++ "\x7d"
    replies = [pong] ∧ Text.IsNumeral n (toString n).toList ∧
      Json.parse? pong = some (Pong.wholeAsRead n) ∧
      (replies = ((Connection.live other).step (.binary more)).2.filterMap Action.reply? ↔
        n = k) := by
  intro replies pong
  have hpong : (Pong.ofTime (Event.pingTime bytes)).write = pong :=
    Pong.write_of_whole h.toInt?_pingTime h.natAbs_le
  have hread : Json.parse? pong = some (Pong.wholeAsRead n) := by
    rw [← hpong]
    exact Pong.parse?_of_whole h.toInt?_pingTime h.natAbs_le
  have hreplies : replies = [pong] := by
    rw [← hpong]
    exact h.replies peer
  refine ⟨hreplies, ?_, hread, ?_⟩
  · rw [← Text.ofList_intDigits, String.toList_ofList]
    exact Text.isNumeral_intDigits n
  · rw [hreplies, h'.replies other, Pong.write_of_whole h'.toInt?_pingTime h'.natAbs_le]
    constructor
    · intro hsame
      have hother := Pong.parse?_of_whole h'.toInt?_pingTime h'.natAbs_le
      rw [Pong.write_of_whole h'.toInt?_pingTime h'.natAbs_le, ← List.singleton_inj.mp hsame,
        hread] at hother
      exact Pong.wholeAsRead_injective (Option.some.inj hother)
    · rintro rfl
      rfl

/-- The greatest time that is safe and a negative zero, which come in unlike bits and are given
back as what they are. -/
theorem whole_time_echoed_of_two :
    let greatest : List UInt8 := List.replicate 16 7 ++ [0x43, 0x3f] ++ List.replicate 6 0xff
    let zero : List UInt8 := List.replicate 16 9 ++ 0x80 :: List.replicate 7 0
    let replies := fun bytes =>
      ((Connection.live none).step (.binary bytes)).2.filterMap Action.reply?
    (IsWholePing greatest 9007199254740991 ∧ IsWholePing zero 0) ∧
      replies greatest = ["\x7b\"type\":\"PONG\",\"timestamp\":9007199254740991\x7d"] ∧
      replies zero = ["\x7b\"type\":\"PONG\",\"timestamp\":0\x7d"] ∧
      replies greatest ≠ replies zero := by
  intro greatest zero replies
  have hgreatest : IsWholePing greatest 9007199254740991 := by
    refine ⟨by decide, ?_, by decide⟩
    have hbits : Nat.ofDigits 256 (((greatest.drop 16).take 8).reverse.map UInt8.toNat) =
        0x433fffffffffffff := by decide
    rw [hbits, Floating.binary64?]
    norm_num [Nat.testBit, Nat.shiftRight_eq_div_pow]
  have hzero : IsWholePing zero 0 := by
    refine ⟨by decide, ?_, by decide⟩
    have hbits : Nat.ofDigits 256 (((zero.drop 16).take 8).reverse.map UInt8.toNat) =
        0x8000000000000000 := by decide
    rw [hbits, Floating.binary64?]
    norm_num
  obtain ⟨hfirst, -, -, hsame⟩ := whole_time_echoed hgreatest hzero none none
  obtain ⟨hsecond, -⟩ := whole_time_echoed hzero hgreatest none none
  refine ⟨⟨hgreatest, hzero⟩, hfirst, hsecond, fun h => ?_⟩
  exact absurd (hsame.mp h) (by decide)

end Relay
end Parley
