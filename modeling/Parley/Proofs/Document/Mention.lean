import Mathlib.Data.Nat.Digits.Defs
import Parley.Proofs.Document.Numbering

/-!
# Restoring translated texts

A translator leaves numbered links in a text of its own: in any order, some of
them twice and others not at all, with stray brackets around and inside them. As
long as `](` stands nowhere else, every target comes back. A link that is read may
begin at a stray bracket far before the link that was meant, but it ends where that
one ends, and so it has the same target and the same text.
-/

namespace Parley
namespace Document

/-!
# Translated texts
-/

def seam : List Char :=
  [']', '(']

def Seamless (cs : List Char) : Prop :=
  ¬ seam <:+: cs

instance (cs : List Char) : Decidable (Seamless cs) :=
  inferInstanceAs (Decidable (¬ seam <:+: cs))

structure Words where
  chars : List Char
  seamless : Seamless chars

/-- A numbered link with the words that follow it. -/
structure Mention where
  label : List Char
  digits : List Char
  after : Words
  label_ne_nil : label ≠ []
  label_oneLine : '\n' ∉ label
  label_seamless : Seamless label
  digits_ne_nil : digits ≠ []
  digits_ascii : ∀ c ∈ digits, Text.isAsciiDigit c = true

def numeral (digits : List Char) : Nat :=
  Nat.ofDigits 10 (digits.reverse.map Text.digitValue)

namespace Mention

def write (m : Mention) : List Char :=
  writeLink m.label m.digits ++ m.after.chars

/-- What the number stands for: an entry of the table, or its own digits. -/
def target (table : List String) (m : Mention) : List Char :=
  if h : numeral m.digits < table.length then table[numeral m.digits].toList else m.digits

def restored (table : List String) (m : Mention) : List Char :=
  writeLink m.label (m.target table) ++ m.after.chars

end Mention

/-!
# Numbers
-/

theorem natOfDigits?_eq_numeral {digits : List Char} (hne : digits ≠ [])
    (hascii : ∀ c ∈ digits, Text.isAsciiDigit c = true) :
    Text.natOfDigits? digits = some (numeral digits) := by
  have hempty : digits.isEmpty = false := by simpa using hne
  have hall : digits.all Text.isAsciiDigit = true := List.all_eq_true.mpr hascii
  have hvalue : digits.foldl (fun n c => n * 10 + Text.digitValue c) 0 = numeral digits := by
    rw [numeral, Nat.ofDigits_eq_foldr, List.foldr_map, List.foldr_reverse]
    congr 1
    funext n c
    simp only [Nat.cast_id]
    omega
  simp [Text.natOfDigits?, hempty, hall, hvalue]

theorem Mention.restoredTarget_eq (table : List String) (m : Mention) :
    restoredTarget table m.digits = m.target table := by
  rw [restoredTarget, natOfDigits?_eq_numeral m.digits_ne_nil m.digits_ascii, Option.bind_some,
    Mention.target]
  by_cases hlt : numeral m.digits < table.length
  · rw [List.getElem?_eq_getElem hlt, dif_pos hlt]
  · rw [List.getElem?_eq_none (Nat.le_of_not_lt hlt), dif_neg hlt]

theorem Mention.numberTarget_digits (m : Mention) (rest : List Char) :
    numberTarget [] (m.digits ++ ')' :: rest) = some (m.digits, rest) :=
  numberTarget_append (Or.inr m.digits_ne_nil) fun c hc =>
    Text.isDecimalDigit_of_isAsciiDigit (m.digits_ascii c hc)

/-!
# Seams
-/

theorem Seamless.tail {c : Char} {cs : List Char} (h : Seamless (c :: cs)) : Seamless cs :=
  fun hinside => h (hinside.trans (List.suffix_cons c cs).isInfix)

theorem Seamless.append_bracket {pre label : List Char} (hpre : Seamless pre)
    (hlabel : Seamless label) : Seamless (pre ++ '[' :: label) := by
  induction pre with
  | nil =>
      rintro hinside
      rcases List.infix_cons_iff.mp hinside with hfront | hlater
      · rcases List.cons_prefix_cons.mp hfront with ⟨hbracket, _⟩
        exact absurd hbracket (by decide)
      · exact hlabel hlater
  | cons c pre ih =>
      rintro hinside
      rcases List.infix_cons_iff.mp hinside with hfront | hlater
      · -- The seam would begin at `c`, so it is in the words, or its parenthesis is the bracket.
        rcases List.cons_prefix_cons.mp hfront with ⟨hc, hrest⟩
        cases pre with
        | nil =>
            rcases List.cons_prefix_cons.mp hrest with ⟨hbracket, _⟩
            exact absurd hbracket (by decide)
        | cons d pre =>
            rcases List.cons_prefix_cons.mp hrest with ⟨hd, _⟩
            rw [← hc, ← hd] at hpre
            exact hpre (List.prefix_append seam pre).isInfix
      · exact ih hpre.tail hlater

section Reading

variable {target : TargetReader}

theorem linkAfter_of_seamless {cs : List Char} (h : Seamless cs) :
    linkAfter target [] cs = none := by
  rw [Option.eq_none_iff_forall_ne_some]
  intro r hr
  rcases linkAfter_eq_some_iff.mp hr with ⟨more, hcs, _, _⟩
  apply h
  rw [hcs]
  exact ⟨r.1, more, by simp [seam]⟩

/-- Up to the first seam the label is all there is, so either it is read or there is no link. -/
theorem linkAfter_of_seam {label more : List Char} {r : List Char × List Char}
    (hseamless : Seamless label) (hne : label ≠ []) (htarget : target more = some r) :
    linkAfter target [] (label ++ ']' :: '(' :: more) =
      if '\n' ∈ label then none else some (label, r.1, r.2) := by
  split
  · rename_i hnewline
    rw [Option.eq_none_iff_forall_ne_some]
    intro r' hr'
    rcases linkAfter_eq_some_iff.mp hr' with ⟨more', hsplit, _, hcloses⟩
    rcases List.append_eq_append_iff.mp hsplit with ⟨rest, hlonger, _⟩ | ⟨rest, hshorter, hrest⟩
    · exact hcloses.oneLine (by rw [hlonger]; exact List.mem_append_left rest hnewline)
    · cases rest with
      | nil =>
          rw [List.append_nil] at hshorter
          exact hcloses.oneLine (hshorter ▸ hnewline)
      | cons c rest =>
          rw [List.cons_append] at hrest
          injection hrest with hc hrest
          cases rest with
          | nil =>
              injection hrest with hparen _
              exact absurd hparen (by decide)
          | cons d rest =>
              rw [List.cons_append] at hrest
              injection hrest with hd _
              apply hseamless
              rw [hshorter, ← hc, ← hd]
              exact ⟨r'.1, rest, by simp [seam]⟩
  · rename_i hnewline
    have hcloses : Closes target [] label more := by
      refine ⟨hnewline, Or.inr hne, ?_⟩
      intro a b hlabel _
      exact absurd ⟨a, b, by simp [hlabel, seam]⟩ hseamless
    exact linkAfter_eq_some_iff.mpr ⟨more, rfl, htarget, hcloses⟩

end Reading

/-!
# Restoring
-/

def restoreChars (table : List String) (cs : List Char) : List Char :=
  (numberedPieces cs).flatMap (Piece.restore table)

section Restoring

variable {table : List String}

theorem restoreChars_nil : restoreChars table [] = [] := by
  rw [restoreChars, numberedPieces, piecesOf_nil, List.flatMap_nil]

theorem restoreChars_char {c : Char} {rest : List Char}
    (h : c = '[' → linkAfter (numberTarget []) [] rest = none) :
    restoreChars table (c :: rest) = c :: restoreChars table rest := by
  rw [restoreChars, numberedPieces, piecesOf_char h, List.flatMap_cons]
  rfl

theorem restoreChars_link {rest label digits after : List Char}
    (h : linkAfter (numberTarget []) [] rest = some (label, digits, after)) :
    restoreChars table ('[' :: rest) =
      writeLink label (restoredTarget table digits) ++ restoreChars table after := by
  rw [restoreChars, numberedPieces, piecesOf_link h, List.flatMap_cons]
  rfl

theorem restoreChars_of_seamless {cs : List Char} (h : Seamless cs) :
    restoreChars table cs = cs := by
  induction cs with
  | nil => exact restoreChars_nil
  | cons c cs ih =>
      rw [restoreChars_char fun _ => linkAfter_of_seamless h.tail, ih h.tail]

/-- From anywhere in the words before a link, reading goes to the end of that link. -/
theorem restoreChars_words_link {words : List Char} (hwords : Seamless words) (m : Mention)
    (rest : List Char) :
    restoreChars table (words ++ (writeLink m.label m.digits ++ rest)) =
      words ++ (writeLink m.label (m.target table) ++ restoreChars table rest) := by
  have hshape : ∀ pre target more, pre ++ (writeLink m.label target ++ more) =
      pre ++ '[' :: m.label ++ ']' :: '(' :: (target ++ ')' :: more) := by
    intro pre target more
    simp [writeLink]
  have hread := m.numberTarget_digits rest
  induction words with
  | nil =>
      have hlink := linkAfter_of_seam m.label_seamless m.label_ne_nil hread
      rw [if_neg m.label_oneLine] at hlink
      rw [hshape, List.nil_append, List.cons_append, restoreChars_link hlink,
        m.restoredTarget_eq]
      simp [writeLink]
  | cons c words ih =>
      have hrest := ih hwords.tail
      by_cases hbracket : c = '['
      · have hlink := linkAfter_of_seam
          (hwords.tail.append_bracket m.label_seamless) (by simp) hread
        rw [← hshape] at hlink
        split at hlink
        · -- A line ends between this bracket and the link, so the bracket stands for itself.
          rw [List.cons_append, restoreChars_char fun _ => hlink, hrest, List.cons_append]
        · rw [hbracket, List.cons_append, restoreChars_link hlink, m.restoredTarget_eq]
          simp [writeLink]
      · rw [List.cons_append, restoreChars_char fun h => absurd h hbracket, hrest,
          List.cons_append]

theorem restoreChars_mentions (first : Words) (ms : List Mention) :
    restoreChars table (first.chars ++ ms.flatMap Mention.write) =
      first.chars ++ ms.flatMap (Mention.restored table) := by
  induction ms generalizing first with
  | nil =>
      rw [List.flatMap_nil, List.flatMap_nil, List.append_nil]
      exact restoreChars_of_seamless first.seamless
  | cons m ms ih =>
      rw [List.flatMap_cons, List.flatMap_cons, Mention.write, Mention.restored,
        List.append_assoc, List.append_assoc, restoreChars_words_link first.seamless, ih m.after]

end Restoring

/-- Whatever words a translator puts around the links and into their labels, every number that
names a target is replaced by it, and all else stays. -/
theorem restoreLinks_mentions (table : List String) (first : Words) (ms : List Mention) :
    restoreLinks table (String.ofList (first.chars ++ ms.flatMap Mention.write)) =
      String.ofList (first.chars ++ ms.flatMap (Mention.restored table)) := by
  rw [← restoreChars_mentions, restoreLinks, String.toList_ofList, restoreChars]

/-- One number comes twice, once with a zero in front, and one names no target; brackets are left
open before a link, in a label, and on the line before. -/
theorem restoreLinks_mentions_of_stray_brackets :
    let first : Words := ⟨['1', ':', ' ', '['], by decide⟩
    let ms : List Mention :=
      [⟨['b', '['], ['1'], ⟨[' ', '(', ']', ')', '[', '\n'], by decide⟩, by decide, by decide,
          by decide, by decide, List.all_eq_true.mp rfl⟩,
        ⟨['a'], ['0', '1'], ⟨[], by decide⟩, by decide, by decide, by decide, by decide,
          List.all_eq_true.mp rfl⟩,
        ⟨[']'], ['7'], ⟨['.'], by decide⟩, by decide, by decide, by decide, by decide,
          List.all_eq_true.mp rfl⟩]
    String.ofList (first.chars ++ ms.flatMap Mention.write) =
        "1: [[b[](1) (])[\n[a](01)[]](7)." ∧
      restoreLinks ["x", "y"] "1: [[b[](1) (])[\n[a](01)[]](7)." =
        "1: [[b[](y) (])[\n[a](y)[]](7)." := by
  intro first ms
  have hwritten : String.ofList (first.chars ++ ms.flatMap Mention.write) =
      "1: [[b[](1) (])[\n[a](01)[]](7)." := by
    decide +kernel
  have hrestored : String.ofList (first.chars ++ ms.flatMap (Mention.restored ["x", "y"])) =
      "1: [[b[](y) (])[\n[a](y)[]](7)." := by
    decide +kernel
  have hwhole := restoreLinks_mentions ["x", "y"] first ms
  rw [hwritten, hrestored] at hwhole
  exact ⟨hwritten, hwhole⟩

end Document
end Parley
