import Parley.Document.Link
import Parley.Proofs.Text.Digit

/-!
# Reading links

What the readers of targets and links accept. A target ends at the first
closing parenthesis that leaves it nonempty, a label at the first `](` that a
target follows. Every reader of targets is told by what it reads here, so that
later proofs need not look into the readers again.
-/

namespace Parley
namespace Document

/-!
# Targets of any characters
-/

theorem anyTarget_append {seen target rest : List Char}
    (hne : seen ≠ [] ∨ target ≠ []) (hline : '\n' ∉ target) (hclose : ')' ∉ target) :
    anyTarget seen (target ++ ')' :: rest) = some (seen.reverse ++ target, rest) := by
  induction target generalizing seen with
  | nil =>
      have hseen : seen ≠ [] := by simpa using hne
      simp [anyTarget, hseen]
  | cons c target ih =>
      rw [List.mem_cons, not_or] at hline hclose
      have hc : ¬ (c = ')' ∧ seen ≠ []) := fun h => hclose.left h.left.symm
      have hmore : c :: seen ≠ [] ∨ target ≠ [] := Or.inl (List.cons_ne_nil c seen)
      have hrest := ih hmore hline.right hclose.right
      simp only [List.cons_append, anyTarget, if_neg hc, if_neg (Ne.symm hline.left)]
      simpa using hrest

theorem anyTarget_eq_some {seen cs target rest : List Char}
    (h : anyTarget seen cs = some (target, rest)) :
    ∃ read, target = seen.reverse ++ read ∧ cs = read ++ ')' :: rest ∧ '\n' ∉ read := by
  induction cs generalizing seen with
  | nil => cases h
  | cons c cs ih =>
      rw [anyTarget] at h
      split at h
      · rename_i hc
        cases h
        exact ⟨[], by simp, by simp [hc.left], by simp⟩
      · split at h
        · cases h
        · rename_i hnewline
          rcases ih h with ⟨read, rfl, rfl, hread⟩
          refine ⟨c :: read, by simp, by simp, ?_⟩
          rw [List.mem_cons, not_or]
          exact ⟨Ne.symm hnewline, hread⟩

theorem anyTarget_isSome_of_seen {seen seen' cs : List Char}
    (hseen : seen ≠ [] → seen' ≠ []) (h : (anyTarget seen cs).isSome) :
    (anyTarget seen' cs).isSome := by
  induction cs generalizing seen seen' with
  | nil => cases h
  | cons c cs ih =>
      rw [anyTarget] at h ⊢
      split at h
      · rename_i hc
        rw [if_pos ⟨hc.left, hseen hc.right⟩]
        rfl
      · split at h
        · cases h
        · rename_i hnewline
          split
          · rfl
          · exact ih (fun _ => List.cons_ne_nil c seen') h

theorem anyTarget_isSome_append (seen : List Char) {pre cs : List Char} (hline : '\n' ∉ pre)
    (h : (anyTarget [] cs).isSome) : (anyTarget seen (pre ++ cs)).isSome := by
  induction pre generalizing seen with
  | nil => exact anyTarget_isSome_of_seen (fun hnil => absurd rfl hnil) h
  | cons c pre ih =>
      rw [List.mem_cons, not_or] at hline
      rw [List.cons_append, anyTarget]
      split
      · rfl
      · rw [if_neg (Ne.symm hline.left)]
        exact ih _ hline.right

/-!
# Targets of digits
-/

theorem numberTarget_append {seen target rest : List Char}
    (hne : seen ≠ [] ∨ target ≠ [])
    (hdigits : ∀ c ∈ target, Text.isDecimalDigit c = true) :
    numberTarget seen (target ++ ')' :: rest) = some (seen.reverse ++ target, rest) := by
  induction target generalizing seen with
  | nil =>
      have hseen : seen ≠ [] := by simpa using hne
      simp [numberTarget, hseen]
  | cons c target ih =>
      have hdigit : Text.isDecimalDigit c = true := hdigits c List.mem_cons_self
      have hc : ¬ (c = ')' ∧ seen ≠ []) := by
        rintro ⟨rfl, _⟩
        exact absurd hdigit (by decide)
      have hmore : c :: seen ≠ [] ∨ target ≠ [] := Or.inl (List.cons_ne_nil c seen)
      have hrest := ih hmore fun d hd => hdigits d (List.mem_cons_of_mem c hd)
      simp only [List.cons_append, numberTarget, if_neg hc, if_pos hdigit]
      simpa using hrest

theorem anyTarget_isSome_of_numberTarget {seen cs : List Char}
    (h : (numberTarget seen cs).isSome) : (anyTarget seen cs).isSome := by
  induction cs generalizing seen with
  | nil => cases h
  | cons c cs ih =>
      rw [numberTarget] at h
      rw [anyTarget]
      split at h
      · rename_i hc
        rw [if_pos hc]
        rfl
      · rename_i hc
        split at h
        · rename_i hdigit
          have hnewline : c ≠ '\n' := by
            rintro rfl
            exact absurd hdigit (by decide)
          rw [if_neg hc, if_neg hnewline]
          exact ih h
        · cases h

/-!
# Labels

A label that has begun is kept reversed. Where it ends is the first place at
which it is not empty and a target follows.
-/

theorem targetHere_eq_some {target : TargetReader} {seen rest : List Char} {c : Char}
    {r : List Char × List Char} (h : targetHere target seen c rest = some r) :
    c = ']' ∧ seen ≠ [] ∧ ∃ more, rest = '(' :: more ∧ target more = some r := by
  cases rest with
  | nil => cases h
  | cons d more =>
      rw [targetHere] at h
      split at h
      · rename_i hc
        exact ⟨hc.left, hc.right.right, more, by rw [hc.right.left], h⟩
      · cases h

theorem targetHere_close {target : TargetReader} {seen more : List Char} (hseen : seen ≠ []) :
    targetHere target seen ']' ('(' :: more) = target more := by
  simp [targetHere, hseen]

/-- After what was seen, the label goes on like this, and `more` begins with its target. -/
structure Closes (target : TargetReader) (seen label more : List Char) : Prop where
  oneLine : '\n' ∉ label
  nonempty : seen ≠ [] ∨ label ≠ []
  shortest : ∀ a b, label = a ++ ']' :: '(' :: b → seen ≠ [] ∨ a ≠ [] →
    target (b ++ ']' :: '(' :: more) = none

theorem Closes.targetHere_eq_none {target : TargetReader} {seen label more : List Char} {c : Char}
    (h : Closes target seen (c :: label) more) :
    targetHere target seen c (label ++ ']' :: '(' :: more) = none := by
  rw [Option.eq_none_iff_forall_ne_some]
  intro r hr
  rcases targetHere_eq_some hr with ⟨rfl, hseen, after, hrest, htarget⟩
  cases label with
  | nil => cases hrest
  | cons d label =>
      rw [List.cons_append] at hrest
      injection hrest with hd hafter
      have hnone := h.shortest [] label (by rw [hd]; rfl) (Or.inl hseen)
      rw [hafter, htarget] at hnone
      cases hnone

theorem Closes.tail {target : TargetReader} {seen label more : List Char} {c : Char}
    (h : Closes target seen (c :: label) more) :
    Closes target (c :: seen) label more where
  oneLine := fun hmem => h.oneLine (List.mem_cons_of_mem c hmem)
  nonempty := Or.inl (List.cons_ne_nil c seen)
  shortest a b hlabel _ :=
    h.shortest (c :: a) b (by rw [hlabel]; rfl) (Or.inr (List.cons_ne_nil c a))

theorem linkAfter_of_closes {target : TargetReader} {seen label more : List Char}
    {r : List Char × List Char} (h : Closes target seen label more)
    (htarget : target more = some r) :
    linkAfter target seen (label ++ ']' :: '(' :: more) =
      some (seen.reverse ++ label, r.1, r.2) := by
  induction label generalizing seen with
  | nil =>
      have hseen : seen ≠ [] := by simpa using h.nonempty
      simp only [List.nil_append, linkAfter, targetHere_close hseen, htarget]
      simp
  | cons c label ih =>
      have hnewline : c ≠ '\n' := fun hc => h.oneLine (hc ▸ List.mem_cons_self)
      simp only [List.cons_append, linkAfter, h.targetHere_eq_none, if_neg hnewline]
      simpa using ih h.tail

theorem linkAfter_eq_some {target : TargetReader} {seen cs : List Char}
    {l t rest : List Char} (h : linkAfter target seen cs = some (l, t, rest)) :
    ∃ label more, l = seen.reverse ++ label ∧ cs = label ++ ']' :: '(' :: more ∧
      target more = some (t, rest) ∧ Closes target seen label more := by
  induction cs generalizing seen with
  | nil => cases h
  | cons c cs ih =>
      rw [linkAfter] at h
      split at h
      · rename_i hhere
        cases h
        rcases targetHere_eq_some hhere with ⟨rfl, hseen, more, rfl, htarget⟩
        exact ⟨[], more, by simp, rfl, htarget, by simp, Or.inl hseen, by simp⟩
      · rename_i hhere
        split at h
        · cases h
        · rename_i hnewline
          rcases ih h with ⟨label, more, rfl, rfl, htarget, hcloses⟩
          refine ⟨c :: label, more, by simp, rfl, htarget, ?_, Or.inr (by simp), ?_⟩
          · rw [List.mem_cons, not_or]
            exact ⟨Ne.symm hnewline, hcloses.oneLine⟩
          · intro a b hlabel hseen
            cases a with
            | nil =>
                injection hlabel with hc hlabel
                have hne : seen ≠ [] := by simpa using hseen
                rw [hc, hlabel, List.cons_append, targetHere_close hne] at hhere
                exact hhere
            | cons d a =>
                injection hlabel with hc hlabel
                exact hcloses.shortest a b hlabel (Or.inl (List.cons_ne_nil c seen))

/-- Reading a link gives the shortest label that a target follows, and no other. -/
theorem linkAfter_eq_some_iff {target : TargetReader} {cs l t rest : List Char} :
    linkAfter target [] cs = some (l, t, rest) ↔
      ∃ more, cs = l ++ ']' :: '(' :: more ∧ target more = some (t, rest) ∧
        Closes target [] l more := by
  constructor
  · intro h
    rcases linkAfter_eq_some h with ⟨label, more, hl, hcs, htarget, hcloses⟩
    rw [List.reverse_nil, List.nil_append] at hl
    subst hl
    exact ⟨more, hcs, htarget, hcloses⟩
  · rintro ⟨more, rfl, htarget, hcloses⟩
    simpa using linkAfter_of_closes hcloses htarget

theorem linkAfter_isSome_of_seen {target : TargetReader} {seen seen' cs : List Char}
    (hseen : seen ≠ [] → seen' ≠ []) (h : (linkAfter target seen cs).isSome) :
    (linkAfter target seen' cs).isSome := by
  induction cs generalizing seen seen' with
  | nil => cases h
  | cons c cs ih =>
      rw [linkAfter] at h ⊢
      split at h
      · rename_i hhere
        rcases targetHere_eq_some hhere with ⟨rfl, hne, more, rfl, htarget⟩
        rw [targetHere_close (hseen hne), htarget]
        rfl
      · split at h
        · cases h
        · rename_i hnewline
          split
          · rfl
          · rw [if_neg hnewline]
            exact ih (fun _ => List.cons_ne_nil c seen') h

end Document
end Parley
