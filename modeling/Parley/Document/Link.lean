import Parley.Text.Digit

/-!
# Links

A link is `[label](target)` on one line, with neither part empty. Reading is
leftmost and lazy: the first bracket that a link can start at, the shortest
label that a target follows, and the shortest target. Before a text is
translated its targets are replaced by numbers, and afterwards the numbers by
the targets.
-/

namespace Parley
namespace Document

/-!
# Reading links

A target reader is given the text after `](` and returns the target and what
follows its closing parenthesis.
-/

abbrev TargetReader := List Char → Option (List Char × List Char)

/-- The shortest target of any characters. -/
def anyTarget (seen : List Char) : TargetReader
  | [] => none
  | c :: rest =>
    if c = ')' ∧ seen ≠ [] then some (seen.reverse, rest)
    else if c = '\n' then none
    else anyTarget (c :: seen) rest

def numberTarget (seen : List Char) : TargetReader
  | [] => none
  | c :: rest =>
    if c = ')' ∧ seen ≠ [] then some (seen.reverse, rest)
    else if Text.isDecimalDigit c then numberTarget (c :: seen) rest
    else none

def targetHere (target : TargetReader) (label : List Char) (c : Char) (rest : List Char) :
    Option (List Char × List Char) :=
  match rest with
  | [] => none
  | d :: more => if c = ']' ∧ d = '(' ∧ label ≠ [] then target more else none

def linkAfter (target : TargetReader) (label : List Char) :
    List Char → Option (List Char × List Char × List Char)
  | [] => none
  | c :: rest =>
    match targetHere target label c rest with
    | some (t, after) => some (label.reverse, t, after)
    | none => if c = '\n' then none else linkAfter target (c :: label) rest

theorem anyTarget_length {seen cs : List Char} {r : List Char × List Char}
    (h : anyTarget seen cs = some r) : r.2.length < cs.length := by
  induction cs generalizing seen with
  | nil => cases h
  | cons c rest ih =>
    simp only [anyTarget] at h
    split at h
    · cases h
      simp
    · split at h
      · cases h
      · have := ih h
        simp only [List.length_cons]
        omega

theorem numberTarget_length {seen cs : List Char} {r : List Char × List Char}
    (h : numberTarget seen cs = some r) : r.2.length < cs.length := by
  induction cs generalizing seen with
  | nil => cases h
  | cons c rest ih =>
    simp only [numberTarget] at h
    split at h
    · cases h
      simp
    · split at h
      · have := ih h
        simp only [List.length_cons]
        omega
      · cases h

/-- What is left after a target is shorter than what the target was read from. -/
def Shortens (target : TargetReader) : Prop :=
  ∀ cs r, target cs = some r → r.2.length < cs.length

theorem anyTarget_shortens : Shortens (anyTarget []) :=
  fun _ _ h => anyTarget_length h

theorem numberTarget_shortens : Shortens (numberTarget []) :=
  fun _ _ h => numberTarget_length h

theorem linkAfter_length {target : TargetReader} (ht : Shortens target) {label cs : List Char}
    {r : List Char × List Char × List Char} (h : linkAfter target label cs = some r) :
    r.2.2.length < cs.length := by
  induction cs generalizing label with
  | nil => cases h
  | cons c rest ih =>
    simp only [linkAfter] at h
    split at h
    · rename_i t after hhere
      cases h
      unfold targetHere at hhere
      split at hhere
      · cases hhere
      · split at hhere
        · have := ht _ _ hhere
          simp only [List.length_cons] at this ⊢
          omega
        · cases hhere
    · split at h
      · cases h
      · have := ih h
        simp only [List.length_cons]
        omega

inductive Piece where
  | char (c : Char)
  | link (label target : List Char)
  deriving DecidableEq, Repr

def piecesOf (target : TargetReader) (ht : Shortens target) (text : List Char) : List Piece :=
  match text with
  | [] => []
  | c :: rest =>
    if c = '[' then
      match h : linkAfter target [] rest with
      | some (label, t, after) =>
        have := linkAfter_length ht h
        .link label t :: piecesOf target ht after
      | none => .char c :: piecesOf target ht rest
    else .char c :: piecesOf target ht rest
termination_by text.length
decreasing_by
  all_goals simp only [List.length_cons] at *
  all_goals omega

def linkPieces (text : List Char) : List Piece :=
  piecesOf (anyTarget []) anyTarget_shortens text

def numberedPieces (text : List Char) : List Piece :=
  piecesOf (numberTarget []) numberTarget_shortens text

/-!
# Writing links
-/

def writeLink (label target : List Char) : List Char :=
  '[' :: (label ++ ']' :: '(' :: (target ++ [')']))

def Piece.write : Piece → List Char
  | .char c => [c]
  | .link label target => writeLink label target

def Piece.target? : Piece → Option (List Char)
  | .char _ => none
  | .link _ target => some target

def writeNumbered (n : Nat) : List Piece → List Char
  | [] => []
  | .char c :: rest => c :: writeNumbered n rest
  | .link label _ :: rest => writeLink label (Text.digits n) ++ writeNumbered (n + 1) rest

/-!
# Numbering and restoring
-/

def numberLinks (text : String) : String × List String :=
  let pieces := linkPieces text.toList
  (String.ofList (writeNumbered 0 pieces), (pieces.filterMap Piece.target?).map String.ofList)

/-- The target that digits stand for; digits that name no link stand for themselves. -/
def restoredTarget (table : List String) (digits : List Char) : List Char :=
  match (Text.natOfDigits? digits).bind fun n => table[n]? with
  | some target => target.toList
  | none => digits

def Piece.restore (table : List String) : Piece → List Char
  | .char c => [c]
  | .link label digits => writeLink label (restoredTarget table digits)

def restoreLinks (table : List String) (text : String) : String :=
  String.ofList ((numberedPieces text.toList).flatMap (Piece.restore table))

end Document
end Parley
