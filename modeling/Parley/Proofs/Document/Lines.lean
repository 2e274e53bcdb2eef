import Parley.Document
import Parley.Proofs.Document.Numbering

/-!
# Reading line by line

A link stands on one line, so what is read before the end of a line does not depend on
what follows it, and reading begins anew behind it. Main statement: translated chunks
that end with their line are restored one by one, whatever brackets are left open in
the others.
-/

namespace Parley
namespace Document

/-!
# Readers that stay on their line
-/

/-- What is read before the end of a line is the same for all texts that may follow it. -/
def StaysOnLine (target : TargetReader) : Prop :=
  ∀ line, (∀ rest, target (line ++ '\n' :: rest) = none) ∨
    ∃ t back, ∀ rest, target (line ++ '\n' :: rest) = some (t, back ++ '\n' :: rest)

theorem numberTarget_line (seen line : List Char) :
    (∀ rest, numberTarget seen (line ++ '\n' :: rest) = none) ∨
      ∃ t back, ∀ rest,
        numberTarget seen (line ++ '\n' :: rest) = some (t, back ++ '\n' :: rest) := by
  induction line generalizing seen with
  | nil =>
      left
      intro rest
      have hdigit : ¬ Text.isDecimalDigit '\n' = true := by decide
      rw [List.nil_append, numberTarget, if_neg (by simp), if_neg hdigit]
  | cons c line ih =>
      by_cases hclose : c = ')' ∧ seen ≠ []
      · right
        refine ⟨seen.reverse, line, ?_⟩
        intro rest
        rw [List.cons_append, numberTarget, if_pos hclose]
      · by_cases hdigit : Text.isDecimalDigit c = true
        · have hmore : ∀ rest, numberTarget seen (c :: line ++ '\n' :: rest) =
              numberTarget (c :: seen) (line ++ '\n' :: rest) := by
            intro rest
            rw [List.cons_append, numberTarget, if_neg hclose, if_pos hdigit]
          simp only [hmore]
          exact ih (c :: seen)
        · left
          intro rest
          rw [List.cons_append, numberTarget, if_neg hclose, if_neg hdigit]

theorem numberTarget_staysOnLine : StaysOnLine (numberTarget []) :=
  numberTarget_line []

section Reading

variable {target : TargetReader}

theorem targetHere_line (hline : StaysOnLine target) (seen line : List Char) (c : Char) :
    (∀ rest, targetHere target seen c (line ++ '\n' :: rest) = none) ∨
      ∃ t back, ∀ rest,
        targetHere target seen c (line ++ '\n' :: rest) = some (t, back ++ '\n' :: rest) := by
  cases line with
  | nil =>
      left
      intro rest
      rw [List.nil_append, targetHere, if_neg (by simp)]
  | cons d line =>
      by_cases hhere : c = ']' ∧ d = '(' ∧ seen ≠ []
      · have hmore : ∀ rest, targetHere target seen c (d :: line ++ '\n' :: rest) =
            target (line ++ '\n' :: rest) := by
          intro rest
          rw [List.cons_append, targetHere, if_pos hhere]
        simp only [hmore]
        exact hline line
      · left
        intro rest
        rw [List.cons_append, targetHere, if_neg hhere]

theorem linkAfter_line (hline : StaysOnLine target) (seen line : List Char) :
    (∀ rest, linkAfter target seen (line ++ '\n' :: rest) = none) ∨
      ∃ l t back, ∀ rest,
        linkAfter target seen (line ++ '\n' :: rest) = some (l, t, back ++ '\n' :: rest) := by
  induction line generalizing seen with
  | nil =>
      left
      intro rest
      have hhere : targetHere target seen '\n' rest = none := by
        rw [Option.eq_none_iff_forall_ne_some]
        intro r hr
        exact absurd (targetHere_eq_some hr).left (by decide)
      rw [List.nil_append, linkAfter, hhere, if_pos rfl]
  | cons c line ih =>
      rcases targetHere_line hline seen line c with hnone | ⟨t, back, hsome⟩
      · by_cases hnewline : c = '\n'
        · left
          intro rest
          rw [List.cons_append, linkAfter, hnone, if_pos hnewline]
        · have hmore : ∀ rest, linkAfter target seen (c :: line ++ '\n' :: rest) =
              linkAfter target (c :: seen) (line ++ '\n' :: rest) := by
            intro rest
            rw [List.cons_append, linkAfter, hnone, if_neg hnewline]
          simp only [hmore]
          exact ih (c :: seen)
      · right
        refine ⟨seen.reverse, t, back, ?_⟩
        intro rest
        rw [List.cons_append, linkAfter, hsome]

/-!
# Pieces
-/

variable {ht : Shortens target}

/-- The pieces of a line are settled before it is known what follows. -/
theorem exists_piecesOf_line (ht : Shortens target) (hline : StaysOnLine target)
    (line : List Char) :
    ∃ pieces, ∀ rest,
      piecesOf target ht (line ++ '\n' :: rest) = pieces ++ piecesOf target ht rest := by
  match line with
  | [] =>
      refine ⟨[.char '\n'], ?_⟩
      intro rest
      rw [List.nil_append, piecesOf_char (fun h => absurd h (by decide))]
      rfl
  | c :: line =>
      have hchar : (∀ rest, c = '[' → linkAfter target [] (line ++ '\n' :: rest) = none) →
          ∃ pieces, ∀ rest,
            piecesOf target ht (c :: line ++ '\n' :: rest) = pieces ++ piecesOf target ht rest := by
        intro hnone
        rcases exists_piecesOf_line ht hline line with ⟨pieces, hpieces⟩
        refine ⟨.char c :: pieces, ?_⟩
        intro rest
        rw [List.cons_append, piecesOf_char (hnone rest), hpieces, List.cons_append]
      by_cases hbracket : c = '['
      · rcases linkAfter_line hline [] line with hnone | ⟨l, t, back, hsome⟩
        · exact hchar fun rest _ => hnone rest
        · have hshort : back.length < line.length := by
            have hlength := linkAfter_length ht (hsome [])
            simpa using hlength
          rcases exists_piecesOf_line ht hline back with ⟨pieces, hpieces⟩
          refine ⟨.link l t :: pieces, ?_⟩
          intro rest
          rw [hbracket, List.cons_append, piecesOf_link (hsome rest), hpieces, List.cons_append]
      · exact hchar fun _ h => absurd h hbracket
termination_by line.length
decreasing_by
  all_goals simp only [List.length_cons]
  all_goals omega

theorem piecesOf_line_append (hline : StaysOnLine target) (line rest : List Char) :
    piecesOf target ht (line ++ '\n' :: rest) =
      piecesOf target ht (line ++ ['\n']) ++ piecesOf target ht rest := by
  rcases exists_piecesOf_line ht hline line with ⟨pieces, hpieces⟩
  rw [hpieces, hpieces, piecesOf_nil, List.append_nil]

end Reading

/-!
# Chunks
-/

def EndsLine (text : String) : Prop :=
  text.toList.getLast? = some '\n'

instance (text : String) : Decidable (EndsLine text) :=
  inferInstanceAs (Decidable (text.toList.getLast? = some '\n'))

theorem restoreLinks_append {text : String} (h : EndsLine text) (table : List String)
    (rest : String) :
    restoreLinks table (text ++ rest) = restoreLinks table text ++ restoreLinks table rest := by
  rcases List.getLast?_eq_some_iff.mp h with ⟨line, hline⟩
  have hpieces : numberedPieces (text ++ rest).toList =
      numberedPieces text.toList ++ numberedPieces rest.toList := by
    rw [String.toList_append, hline, List.append_assoc]
    exact piecesOf_line_append numberTarget_staysOnLine line rest.toList
  rw [restoreLinks, hpieces, List.flatMap_append, String.ofList_append]
  rfl

theorem restoreLinks_empty (table : List String) : restoreLinks table "" = "" := by
  rw [restoreLinks, numberedPieces, String.toList_empty, piecesOf_nil]
  rfl

/-- Every text but the last ends with its line. -/
def EndLines (outputs : List String) : Prop :=
  ∀ output ∈ outputs.dropLast, EndsLine output

instance (outputs : List String) : Decidable (EndLines outputs) :=
  inferInstanceAs (Decidable (∀ output ∈ outputs.dropLast, EndsLine output))

theorem EndLines.set {outputs : List String} (h : EndLines outputs) {i : Nat} {output : String}
    (houtput : i + 1 < outputs.length → EndsLine output) : EndLines (outputs.set i output) := by
  intro o ho
  rw [List.dropLast_eq_take, List.length_set, List.take_set] at ho
  by_cases hi : i + 1 < outputs.length
  · rcases List.mem_or_eq_of_mem_set ho with hold | rfl
    · rw [← List.dropLast_eq_take] at hold
      exact h o hold
    · exact houtput hi
  · have hbeyond : (outputs.take (outputs.length - 1)).length ≤ i := by
      rw [List.length_take]
      omega
    rw [List.set_eq_of_length_le hbeyond, ← List.dropLast_eq_take] at ho
    exact h o ho

theorem restoreLinks_join (table : List String) {outputs : List String} (h : EndLines outputs) :
    restoreLinks table (String.join outputs) =
      String.join (outputs.map (restoreLinks table)) := by
  induction outputs with
  | nil => exact restoreLinks_empty table
  | cons output outputs ih =>
      cases outputs with
      | nil => simp
      | cons next later =>
          rw [EndLines, List.dropLast_cons_cons] at h
          have hfirst : EndsLine output := h output List.mem_cons_self
          have hrest := ih fun o ho => h o (List.mem_cons_of_mem output ho)
          rw [String.join_cons, restoreLinks_append hfirst, hrest]
          exact String.join_cons.symm

/-- Chunks that end with their line are restored one by one, and another translation of one of
them changes nothing in the others. -/
theorem reassemble_restores_apart (d : Document) (hmarkdown : d.markup = .markdown)
    (outputs : List String) (hlines : EndLines outputs) :
    d.reassemble outputs = String.join (outputs.map (restoreLinks d.links)) ∧
      ∀ i output, (i + 1 < outputs.length → EndsLine output) →
        d.reassemble (outputs.set i output) =
          String.join
            ((outputs.map (restoreLinks d.links)).set i (restoreLinks d.links output)) := by
  have hjoin : ∀ os, d.reassemble os = restoreLinks d.links (String.join os) := by
    intro os
    rw [reassemble, hmarkdown]
  constructor
  · rw [hjoin, restoreLinks_join d.links hlines]
  · intro i output houtput
    rw [hjoin, restoreLinks_join d.links (hlines.set houtput), List.map_set]

/-- The first chunk leaves a link open in front of what the second begins with. -/
theorem reassemble_restores_apart_of_open_link :
    let d : Document := ⟨.markdown, [], ["x", "y"]⟩
    let outputs := ["[a](0) [b](\n", "1) [c](1)"]
    EndLines outputs ∧
      d.reassemble outputs = "[a](x) [b](\n1) [c](y)" ∧
      d.reassemble ["[b](1) [\n", "1) [c](1)"] = "[b](y) [\n1) [c](y)" := by
  intro d outputs
  have hlines : EndLines outputs := by decide
  have hapart := reassemble_restores_apart d rfl outputs hlines
  have hfirst : restoreLinks d.links "[a](0) [b](\n" = "[a](x) [b](\n" := by decide +kernel
  have hsecond : restoreLinks d.links "1) [c](1)" = "1) [c](y)" := by decide +kernel
  have hother : restoreLinks d.links "[b](1) [\n" = "[b](y) [\n" := by decide +kernel
  refine ⟨hlines, ?_, ?_⟩
  · rw [hapart.left, List.map_cons, List.map_cons, hfirst, hsecond]
    rfl
  · have hset := hapart.right 0 "[b](1) [\n" (fun _ => by decide)
    rw [hother, List.map_cons, List.map_cons, hsecond] at hset
    exact hset

end Document
end Parley
