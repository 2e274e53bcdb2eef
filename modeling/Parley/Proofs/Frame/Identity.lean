import Parley.Frame.Binary
import Parley.Proofs.Text.Hex

/-!
# Identities at the head of binary frames

The name of a peer is the UUID of sixteen bytes: digits in lowercase with a hyphen at four
fixed places. Without the hyphens it is read back as these bytes, so two heads give one
name exactly if they are the same head, and what follows a head has no part in it.
-/

namespace Parley

namespace PeerId

/-!
# The form of a UUID
-/

def hyphenPlaces : List Nat :=
  [8, 13, 18, 23]

/-- Thirty-six characters, a hyphen at each of the four places and lowercase digits elsewhere. -/
structure IsUuid (text : List Char) : Prop where
  length : text.length = 36
  hyphen : ∀ i ∈ hyphenPlaces, text[i]? = some '-'
  digit : ∀ i c, i ∉ hyphenPlaces → text[i]? = some c → Text.Hex.isLowerDigit c = true

theorem getElem?_hyphen {before : List Char} {n : Nat} (h : before.length = n)
    (after : List Char) (i : Nat) :
    (before ++ '-' :: after)[i]? =
      if i < n then before[i]? else if i = n then some '-' else after[i - (n + 1)]? := by
  subst h
  by_cases hbefore : i < before.length
  · rw [if_pos hbefore, List.getElem?_append_left hbefore]
  · rw [if_neg hbefore, List.getElem?_append_right (Nat.le_of_not_lt hbefore)]
    by_cases hhere : i = before.length
    · rw [if_pos hhere, hhere, Nat.sub_self]
      rfl
    · have hafter : i - before.length = i - (before.length + 1) + 1 := by omega
      rw [if_neg hhere, hafter, List.getElem?_cons_succ]

theorem cases_of_getElem?_hyphen {before after : List Char} {n i : Nat} {c : Char}
    (h : before.length = n) (hc : (before ++ '-' :: after)[i]? = some c) :
    c ∈ before ∨ i = n ∨ n < i ∧ after[i - (n + 1)]? = some c := by
  rw [getElem?_hyphen h] at hc
  split at hc
  · exact .inl (List.mem_of_getElem? hc)
  · split at hc
    · exact .inr (.inl ‹_›)
    · exact .inr (.inr ⟨by omega, hc⟩)

variable {bytes : List UInt8}

theorem length_encode_head (h : bytes.length = width) : (Text.Hex.encode bytes).length = 32 := by
  rw [Text.Hex.length_encode, h]
  rfl

theorem isUuid_hyphenated (h : bytes.length = width) : IsUuid (hyphenated bytes) := by
  have hlength := length_encode_head h
  have hdigit : ∀ c ∈ Text.Hex.encode bytes, Text.Hex.isLowerDigit c = true :=
    fun _ hc => Text.Hex.isLowerDigit_of_mem_encode hc
  unfold hyphenated
  generalize Text.Hex.encode bytes = ds at hlength hdigit
  have h8 : (ds.take 8).length = 8 := by simp [hlength]
  have h4 : ∀ n, n ≤ 28 → ((ds.drop n).take 4).length = 4 := by
    intro n hn
    rw [List.length_take, List.length_drop, hlength]
    omega
  refine ⟨?_, fun i hi => ?_, fun i c hi hc => ?_⟩
  · simp only [List.length_append, List.length_cons, h8, h4 8 (by decide), h4 12 (by decide),
      h4 16 (by decide), List.length_drop, hlength]
  · simp only [hyphenPlaces, List.mem_cons, List.not_mem_nil, or_false] at hi
    rw [getElem?_hyphen h8, getElem?_hyphen (h4 8 (by decide)), getElem?_hyphen (h4 12 (by decide)),
      getElem?_hyphen (h4 16 (by decide))]
    rcases hi with rfl | rfl | rfl | rfl <;> rfl
  · have hother : i ≠ 8 ∧ i ≠ 13 ∧ i ≠ 18 ∧ i ≠ 23 := by
      simpa [hyphenPlaces] using hi
    have hdrop : ∀ n, (ds.drop n).take 4 ⊆ ds :=
      fun n => ((List.take_sublist 4 _).trans (List.drop_sublist n ds)).subset
    rcases cases_of_getElem?_hyphen h8 hc with hc | rfl | ⟨hlt, hc⟩
    · exact hdigit c (List.take_subset 8 ds hc)
    · exact absurd rfl hother.1
    rcases cases_of_getElem?_hyphen (h4 8 (by decide)) hc with hc | hi | ⟨hlt, hc⟩
    · exact hdigit c (hdrop 8 hc)
    · omega
    rcases cases_of_getElem?_hyphen (h4 12 (by decide)) hc with hc | hi | ⟨hlt, hc⟩
    · exact hdigit c (hdrop 12 hc)
    · omega
    rcases cases_of_getElem?_hyphen (h4 16 (by decide)) hc with hc | hi | ⟨hlt, hc⟩
    · exact hdigit c (hdrop 16 hc)
    · omega
    exact hdigit c (List.drop_subset 20 ds (List.mem_of_getElem? hc))

theorem filter_hyphenated (bytes : List UInt8) :
    (hyphenated bytes).filter (· != '-') = Text.Hex.encode bytes := by
  have hdigit : ∀ c ∈ Text.Hex.encode bytes, c ≠ '-' :=
    fun _ hc => Text.Hex.ne_hyphen_of_isLowerDigit (Text.Hex.isLowerDigit_of_mem_encode hc)
  unfold hyphenated
  generalize Text.Hex.encode bytes = ds at hdigit
  have hkeep : ∀ {group : List Char}, group ⊆ ds → group.filter (· != '-') = group := by
    intro group hsub
    refine List.filter_eq_self.mpr fun c hc => ?_
    simpa using hdigit c (hsub hc)
  have hgroup : ∀ n, ((ds.drop n).take 4).filter (· != '-') = (ds.drop n).take 4 :=
    fun n => hkeep ((List.take_sublist 4 _).trans (List.drop_sublist n ds)).subset
  have hjoin : ∀ n, (ds.drop n).take 4 ++ ds.drop (n + 4) = ds.drop n := by
    intro n
    rw [← List.drop_drop, List.take_append_drop]
  simp only [List.filter_append, List.filter_cons, bne_self_eq_false, Bool.false_eq_true,
    if_false, hkeep (List.take_subset 8 ds), hgroup, hkeep (List.drop_subset 20 ds), hjoin,
    List.take_append_drop]

theorem ofBytes?_of_long (h : width ≤ bytes.length) :
    ofBytes? bytes = some ⟨String.ofList (hyphenated (bytes.take width))⟩ := by
  rw [ofBytes?, if_neg (Nat.not_lt.mpr h)]

theorem decode?_hyphenated (bytes : List UInt8) :
    Text.Hex.decode? ((hyphenated bytes).filter (· != '-')) = some bytes := by
  rw [filter_hyphenated, Text.Hex.decode?_encode]

end PeerId

namespace BinaryFrame

open PeerId

theorem ofBytes_head_append {head : List UInt8} {p : PeerId} (h : head.length = width)
    (hp : ofBytes? head = some p) (tail : List UInt8) :
    ofBytes (head ++ tail) =
      if tail.length = 0 then .identity p
      else if tail.length < 8 then .truncated p
      else .ping p (Timestamp.ofBytes (tail.take 8)) := by
  have hlong : width ≤ (head ++ tail).length := by
    rw [List.length_append, h]
    exact Nat.le_add_right _ _
  have hhead : (head ++ tail).take width = head.take width := by
    rw [List.take_left' h, ← h, List.take_length]
  have hpeer : ofBytes? (head ++ tail) = some p := by
    rw [ofBytes?_of_long hlong, hhead, ← ofBytes?_of_long (Nat.le_of_eq h.symm), hp]
  have htail : (head ++ tail).drop width = tail := List.drop_left' h
  rw [ofBytes, hpeer]
  simp only [htail, List.isEmpty_iff, List.length_eq_zero_iff]
  rfl

/-- Identities are faithful: two byte strings that hold a head name the same peer if and only if
their heads are the same. The name is a UUID of which the head is read back, and every frame with
this head is of that peer, whether the head stands alone or in front of a time, be it whole or
cut short. -/
theorem identity_faithful {a b : List UInt8} (ha : 16 ≤ a.length) (hb : 16 ≤ b.length) :
    ∃ p q, PeerId.ofBytes? a = some p ∧ PeerId.ofBytes? b = some q ∧
      (p = q ↔ a.take 16 = b.take 16) ∧
      IsUuid p.text.toList ∧
      Text.Hex.decode? (p.text.toList.filter (· != '-')) = some (a.take 16) ∧
      (ofBytes a).peer? = some p ∧ (ofBytes b).peer? = some q ∧
      ∀ tail, ofBytes (a.take 16 ++ tail) =
        if tail.length = 0 then .identity p
        else if tail.length < 8 then .truncated p
        else .ping p (Timestamp.ofBytes (tail.take 8)) := by
  have hhead : ∀ {bytes : List UInt8}, 16 ≤ bytes.length → (bytes.take 16).length = width := by
    intro bytes h
    rw [List.length_take, Nat.min_eq_left h]
    rfl
  have hname : ∀ {bytes : List UInt8}, 16 ≤ bytes.length →
      PeerId.ofBytes? (bytes.take 16) = PeerId.ofBytes? bytes := by
    intro bytes h
    rw [ofBytes?_of_long (Nat.le_of_eq (hhead h).symm), ofBytes?_of_long h, width,
      List.take_take, Nat.min_self]
  have hframe : ∀ {bytes : List UInt8} {r : PeerId}, 16 ≤ bytes.length →
      PeerId.ofBytes? bytes = some r → (ofBytes bytes).peer? = some r := by
    intro bytes r h hr
    have hsplit := ofBytes_head_append (hhead h) ((hname h).trans hr) (bytes.drop 16)
    rw [List.take_append_drop] at hsplit
    rw [hsplit]
    split
    · rfl
    · split <;> rfl
  have hp := ofBytes?_of_long ha
  have hq := ofBytes?_of_long hb
  refine ⟨_, _, hp, hq, ?_, ?_, ?_, hframe ha hp, hframe hb hq,
    ofBytes_head_append (hhead ha) ((hname ha).trans hp)⟩
  · constructor
    · intro hsame
      have htext := congrArg (fun r : PeerId => r.text.toList.filter (· != '-')) hsame
      simp only [String.toList_ofList, filter_hyphenated] at htext
      exact Text.Hex.encode_injective htext
    · intro hsame
      rw [width, hsame]
  · rw [String.toList_ofList]
    exact isUuid_hyphenated (hhead ha)
  · rw [String.toList_ofList]
    exact decode?_hyphenated (a.take 16)

/-- A ping and a truncated frame with one head are of one peer, and a frame whose head differs in
the last byte is of another. -/
theorem identity_faithful_of_three :
    let head : List UInt8 := [0x00, 0x11, 0x22, 0x33, 0x44, 0x55, 0x66, 0x77, 0x88, 0x99, 0xaa,
      0xbb, 0xcc, 0xdd, 0xee, 0xff]
    let other : List UInt8 := head.set 15 0xfe
    let peer : PeerId := ⟨"00112233-4455-6677-8899-aabbccddeeff"⟩
    (16 ≤ (head ++ [1, 2, 3]).length ∧ 16 ≤ (head ++ List.replicate 9 7).length ∧
      16 ≤ other.length) ∧
      PeerId.ofBytes? (head ++ [1, 2, 3]) = some peer ∧
      (ofBytes (head ++ List.replicate 9 7)).peer? = some peer ∧
      PeerId.ofBytes? other ≠ some peer := by
  intro head other peer
  have hlong : 16 ≤ (head ++ [1, 2, 3]).length ∧ 16 ≤ (head ++ List.replicate 9 7).length ∧
      16 ≤ other.length := by decide
  obtain ⟨p, q, hp, hq, hsame, -, -, -, hping, -⟩ := identity_faithful hlong.1 hlong.2.1
  obtain ⟨p', r, hp', hr, hother, -⟩ := identity_faithful hlong.1 hlong.2.2
  have hpeer : PeerId.ofBytes? (head ++ [1, 2, 3]) = some peer := by decide
  have hpq : p = q := hsame.mpr (by decide)
  rw [hpeer] at hp hp'
  cases hp
  cases hp'
  refine ⟨hlong, hpeer, ?_, ?_⟩
  · rw [hping, ← hpq]
  · rw [hr]
    intro h
    injection h with h
    have hheads := hother.mp h.symm
    revert hheads
    decide

end BinaryFrame
end Parley
