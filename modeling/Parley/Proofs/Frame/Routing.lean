import Parley.Proofs.Json.Member
import Parley.Proofs.Relay.Connection

/-!
# Routing fields of written frames

However an object is laid out and whatever else it holds, its frame is routed by the last
members that say what kind of message it is, who sends it and who is to receive it, each
as far as it is a nonempty string.
-/

namespace Parley

open Json Json.Value

/-- The value of the last member of this name, when it is a string and says something. -/
def lastText? (name : String) (ms : List (String × Json.Value)) : Option String :=
  match lastNamed name ms with
  | some (.string s) => if s = "" then none else some s
  | _ => none

theorem lastText?_eq_some_iff {name s : String} {ms : List (String × Json.Value)} :
    lastText? name ms = some s ↔ lastNamed name ms = some (.string s) ∧ s ≠ "" := by
  unfold lastText?
  constructor
  · intro h
    split at h
    · rename_i hlast
      split at h
      · cases h
      · rename_i hne
        cases h
        exact ⟨hlast, hne⟩
    · cases h
  · rintro ⟨hlast, hne⟩
    rw [hlast]
    exact if_neg hne

namespace Routing

theorem field?_sortMembers {room : Nat} {ms read : List (String × Json.Value)}
    (h : AreReadAs room ms read) (name : String) :
    field? name (.object (sortMembers read)) = lastText? name ms := by
  rw [field?, member?_sortMembers, h.string?_lastNamed]
  unfold lastText?
  split
  · rename_i s hlast
    rw [hlast]
    by_cases hs : s = "" <;> simp [string?, hs]
  · rename_i hother
    cases hlast : lastNamed name ms with
    | none => rfl
    | some v =>
        cases v with
        | string s => exact absurd hlast (hother s)
        | _ => rfl

end Routing

theorem TextFrame.ofText_of_isLaidOut {ms : List (String × Json.Value)} {cs : List Char}
    (hdepth : ∀ m ∈ ms, m.2.depth ≤ 126) (hfinite : ∀ m ∈ ms, ∀ n ∈ m.2.numbers, n.IsFinite)
    (htext : IsLaidOut (Json.Value.object ms).lexemes cs) :
    ofText (String.ofList cs) =
      .routed ⟨lastText? "type" ms, lastText? "sender" ms, lastText? "receiver" ms⟩ := by
  obtain ⟨read, hread⟩ := exists_areReadAs fun m hm => exists_isReadAs (hdepth m hm) (hfinite m hm)
  have hobject : (Json.Value.object ms).IsReadAs Tree.maxDepth (.object (sortMembers read)) :=
    isReadAs_object hread rfl
  have hparse : parse? (String.ofList cs) = some (.object (sortMembers read)) := by
    rw [parse?, read_of_isLaidOut htext]
    exact hobject
  rw [ofText, hparse]
  simp only [Routing.ofObject, Routing.field?_sortMembers hread]

namespace Relay

/-- The frame of a written object is routed by the last members of the three names, and it is kept
from exactly the known peers that its last receiver is not. -/
theorem routed_as_written {ms : List (String × Json.Value)} {cs : List Char}
    (hdepth : ∀ m ∈ ms, m.2.depth ≤ 126) (hfinite : ∀ m ∈ ms, ∀ n ∈ m.2.numbers, n.IsFinite)
    (htext : IsLaidOut (Json.Value.object ms).lexemes cs) :
    TextFrame.ofText (String.ofList cs) =
        .routed ⟨lastText? "type" ms, lastText? "sender" ms, lastText? "receiver" ms⟩ ∧
      ∀ peer, shouldDeliver peer (.text (String.ofList cs)) = false ↔
        ∃ me receiver, peer = some me ∧ lastNamed "receiver" ms = some (.string receiver) ∧
          receiver ≠ "" ∧ me.text ≠ receiver := by
  have hrouted := TextFrame.ofText_of_isLaidOut hdepth hfinite htext
  refine ⟨hrouted, fun peer => shouldDeliver_eq_false_iff.trans ⟨?_, ?_⟩⟩
  · rintro ⟨me, text, r, receiver, hpeer, htext, hframe, hreceiver, hne, hother⟩
    cases htext
    rw [hrouted] at hframe
    cases hframe
    obtain ⟨hlast, -⟩ := lastText?_eq_some_iff.mp hreceiver
    exact ⟨me, receiver, hpeer, hlast, hne, hother.symm⟩
  · rintro ⟨me, receiver, hpeer, hlast, hne, hother⟩
    exact ⟨me, _, _, receiver, hpeer, rfl, hrouted, lastText?_eq_some_iff.mpr ⟨hlast, hne⟩, hne,
      hother.symm⟩

/-- A blank in front, a second kind with an escape, and a sender that is no string. -/
theorem routed_as_written_of_four :
    TextFrame.ofText
        "\n\x7b\"type\":\"a\",\"type\":\"b\\n\",\"sender\":[1.5],\"receiver\":\"p\"\x7d" =
        .routed ⟨some "b\n", none, some "p"⟩ ∧
      shouldDeliver (some ⟨"q"⟩)
        (.text "\n\x7b\"type\":\"a\",\"type\":\"b\\n\",\"sender\":[1.5],\"receiver\":\"p\"\x7d") =
        false := by
  let v : Json.Value := .object [("type", .string "a"), ("type", .string "b\n"),
    ("sender", .array [.number (.real (Floating.ofBits64 4609434218613702656))]),
    ("receiver", .string "p")]
  have hfinite : (Number.real (Floating.ofBits64 4609434218613702656)).IsFinite :=
    .real 4609434218613702656 rfl
  have hblank : ∀ c ∈ ['\n'], Token.isSpace c = true := by
    intro c hc
    rw [List.mem_singleton.mp hc]
    rfl
  have hlayout : IsLaidOut v.lexemes ('\n' :: v.lexemes.flatMap Lexeme.text) :=
    IsLaidOut.cons .beginObject hblank (isLaidOut_flatMap _)
  have hwritten : String.ofList ('\n' :: v.lexemes.flatMap Lexeme.text) =
      "\n\x7b\"type\":\"a\",\"type\":\"b\\n\",\"sender\":[1.5],\"receiver\":\"p\"\x7d" := by
    decide +kernel
  obtain ⟨hrouted, hkept⟩ := routed_as_written (by simp [depth, depth.itemDepth])
    (by simpa [numbers, numbers.itemNumbers]) hlayout
  rw [hwritten] at hrouted hkept
  exact ⟨hrouted, (hkept _).mpr ⟨⟨"q"⟩, "p", rfl, rfl, by decide, by decide⟩⟩

end Relay
end Parley
