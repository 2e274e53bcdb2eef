import Mathlib.Data.List.Chain
import Parley.Proofs.Document.Cutting

/-!
# Where sections meet

A section ends with its line, the next one begins with a heading, and no section
has a heading behind one of its own lines.
-/

namespace Parley

namespace Text

theorem startsWith_iff {lead cs : List Char} : startsWith lead cs = true ↔ lead <+: cs := by
  induction lead generalizing cs with
  | nil =>
      constructor
      · intro _
        exact List.nil_prefix
      · intro _
        cases cs <;> rfl
  | cons a lead ih =>
      cases cs with
      | nil => simp [startsWith, after?]
      | cons c cs =>
          rw [List.cons_prefix_cons, ← ih, startsWith, startsWith, after?]
          by_cases ha : a = c
          · rw [if_pos ha]
            simp [ha]
          · rw [if_neg ha]
            simp [ha]

end Text

namespace Document

structure Meet (before after : List Char) : Prop where
  lineEnds : ['\n'] <:+ before
  heads : heading <+: after

def innerHeading : List Char :=
  '\n' :: heading

structure IsSectioned (ss : List (List Char)) : Prop where
  ne_nil : ∀ s ∈ ss, s ≠ []
  meet : ss.IsChain Meet
  whole : ∀ s ∈ ss, ¬ innerHeading <:+: s

/-!
# One character
-/

theorem placeChar_of_heading {s : List Char} (hs : heading <+: s) (rest : List (List Char)) :
    placeChar '\n' (s :: rest) = ['\n'] :: s :: rest := by
  rw [placeChar, if_pos ⟨rfl, Text.startsWith_iff.mpr hs⟩]

theorem placeChar_of_inner {c : Char} {s : List Char} (h : ¬ (c = '\n' ∧ heading <+: s))
    (rest : List (List Char)) : placeChar c (s :: rest) = (c :: s) :: rest := by
  rw [placeChar, if_neg]
  rintro ⟨hc, hs⟩
  exact h ⟨hc, Text.startsWith_iff.mp hs⟩

theorem not_innerHeading_singleton (c : Char) : ¬ innerHeading <:+: [c] := by
  intro h
  exact absurd h.length_le (by decide : ¬ innerHeading.length ≤ 1)

theorem Meet.cons {before after : List Char} (c : Char) (h : Meet before after) :
    Meet (c :: before) after where
  lineEnds := h.lineEnds.trans (List.suffix_cons c before)
  heads := h.heads

theorem IsSectioned.placeChar (c : Char) {ss : List (List Char)} (h : IsSectioned ss) :
    IsSectioned (placeChar c ss) := by
  cases ss with
  | nil =>
      constructor
      · intro s hs
        rw [List.mem_singleton.mp hs]
        exact List.cons_ne_nil c []
      · exact List.isChain_singleton [c]
      · intro s hs
        rw [List.mem_singleton.mp hs]
        exact not_innerHeading_singleton c
  | cons s rest =>
      have hne := List.forall_mem_cons.mp h.ne_nil
      have hwhole := List.forall_mem_cons.mp h.whole
      by_cases hcut : c = '\n' ∧ heading <+: s
      · rcases hcut with ⟨rfl, hs⟩
        rw [placeChar_of_heading hs]
        constructor
        · exact List.forall_mem_cons.mpr ⟨List.cons_ne_nil _ _, h.ne_nil⟩
        · exact List.isChain_cons_cons.mpr ⟨⟨List.suffix_refl _, hs⟩, h.meet⟩
        · exact List.forall_mem_cons.mpr ⟨not_innerHeading_singleton _, h.whole⟩
      · rw [placeChar_of_inner hcut]
        constructor
        · exact List.forall_mem_cons.mpr ⟨List.cons_ne_nil c s, hne.right⟩
        · cases rest with
          | nil => exact List.isChain_singleton (c :: s)
          | cons t rest =>
              have hmeet := List.isChain_cons_cons.mp h.meet
              exact List.isChain_cons_cons.mpr ⟨hmeet.left.cons c, hmeet.right⟩
        · have hfirst : ¬ innerHeading <:+: c :: s := by
            intro hinner
            rcases List.infix_cons_iff.mp hinner with hfront | hlater
            · rcases List.cons_prefix_cons.mp hfront with ⟨hc, hs⟩
              exact hcut ⟨hc.symm, hs⟩
            · exact hwhole.left hlater
          exact List.forall_mem_cons.mpr ⟨hfirst, hwhole.right⟩

theorem isSectioned_sectionsOf (text : List Char) : IsSectioned (sectionsOf text) := by
  induction text with
  | nil =>
      constructor
      · intro s hs
        cases hs
      · exact List.isChain_nil
      · intro s hs
        cases hs
  | cons c text ih => exact ih.placeChar c

end Document
end Parley
