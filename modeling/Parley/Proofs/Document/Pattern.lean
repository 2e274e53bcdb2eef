import Parley.Proofs.Document.Numbering

/-!
# Link patterns

A pattern is read off a text from left to right. Where it can match in several
ways they are ordered: a lazy repetition prefers to end early and a greedy one
to end late, and the first way counts. Here the ways are spelled out as lists,
and the readers of links are shown to find the first one.
-/

namespace Parley
namespace Document

/-!
# Ways to match
-/

inductive Item where
  | one (p : Char → Bool)
  | lazy (p : Char → Bool)
  | greedy (p : Char → Bool)

/-- What each item of a pattern matched, and the text that follows. -/
abbrev Way := List (List Char) × List Char

def Way.before (run : List Char) (w : Way) : Way :=
  (run :: w.1, w.2)

def runs (p : Char → Bool) : List Char → List (List Char × List Char)
  | [] => []
  | c :: cs => if p c then ([c], cs) :: (runs p cs).map fun r => (c :: r.1, r.2) else []

def Item.ways : Item → List Char → List (List Char × List Char)
  | .one _, [] => []
  | .one p, c :: cs => if p c then [([c], cs)] else []
  | .lazy p, cs => runs p cs
  | .greedy p, cs => (runs p cs).reverse

/-- All ways to match a pattern at the front of a text, in order of preference. -/
def ways : List Item → List Char → List Way
  | [], cs => [([], cs)]
  | item :: items, cs => (item.ways cs).flatMap fun r => (ways items r.2).map (Way.before r.1)

def isNotNewline (c : Char) : Bool :=
  c ≠ '\n'

def linkPattern (target : Item) : List Item :=
  [.one (· = '['), .lazy isNotNewline, .one (· = ']'), .one (· = '('), target, .one (· = ')')]

theorem ways_one_nil (p : Char → Bool) (items : List Item) : ways (.one p :: items) [] = [] :=
  rfl

theorem ways_one_cons (p : Char → Bool) (items : List Item) (c : Char) (cs : List Char) :
    ways (.one p :: items) (c :: cs) =
      if p c then (ways items cs).map (Way.before [c]) else [] := by
  rw [ways, Item.ways]
  split <;> simp

/-!
# Repetitions

A repetition that has begun can end here, if something was seen, or go on. The
two kinds try these in opposite orders.
-/

section Repetition

variable {β : Type} (p : Char → Bool) (k : List Char → List Char → List β)

def endsHere (seen cs : List Char) : List β :=
  if seen = [] then [] else k seen.reverse cs

def endsLater (seen cs : List Char) : List β :=
  (runs p cs).flatMap fun r => k (seen.reverse ++ r.1) r.2

def endsLast (seen cs : List Char) : List β :=
  (runs p cs).reverse.flatMap fun r => k (seen.reverse ++ r.1) r.2

theorem endsHere_nil (cs : List Char) : endsHere k [] cs = [] :=
  if_pos rfl

theorem endsHere_cons (d : Char) (seen cs : List Char) :
    endsHere k (d :: seen) cs = k (seen.reverse ++ [d]) cs := by
  rw [endsHere, if_neg (List.cons_ne_nil d seen), List.reverse_cons]

theorem endsLater_nil (seen : List Char) : endsLater p k seen [] = [] :=
  rfl

theorem endsLater_cons (seen : List Char) (c : Char) (cs : List Char) :
    endsLater p k seen (c :: cs) =
      if p c then endsHere k (c :: seen) cs ++ endsLater p k (c :: seen) cs else [] := by
  rw [endsLater, runs]
  split
  · simp [endsHere_cons, endsLater, List.flatMap_map]
  · rfl

theorem endsLast_nil (seen : List Char) : endsLast p k seen [] = [] :=
  rfl

theorem endsLast_cons (seen : List Char) (c : Char) (cs : List Char) :
    endsLast p k seen (c :: cs) =
      if p c then endsLast p k (c :: seen) cs ++ endsHere k (c :: seen) cs else [] := by
  rw [endsLast, runs]
  split
  · simp [endsHere_cons, endsLast, List.flatMap_map, ← List.map_reverse]
  · rfl

end Repetition

def resume (items : List Item) (run rest : List Char) : List Way :=
  (ways items rest).map (Way.before run)

theorem ways_lazy (p : Char → Bool) (items : List Item) (cs : List Char) :
    ways (.lazy p :: items) cs = endsLater p (resume items) [] cs :=
  rfl

theorem ways_greedy (p : Char → Bool) (items : List Item) (cs : List Char) :
    ways (.greedy p :: items) cs = endsLast p (resume items) [] cs :=
  rfl

/-!
# Targets
-/

def targetWay (r : List Char × List Char) : Way :=
  ([r.1, [')']], r.2)

/-- The reader finds the first way to match a target and its closing parenthesis. -/
def Reads (target : TargetReader) (item : Item) : Prop :=
  ∀ cs, (ways [item, .one (· = ')')] cs).head? = (target cs).map targetWay

def closings : List Char → List Char → List Way :=
  resume [.one (· = ')')]

theorem closings_nil (target : List Char) : closings target [] = [] :=
  rfl

theorem closings_cons (target : List Char) (c : Char) (rest : List Char) :
    closings target (c :: rest) = if c = ')' then [targetWay (target, rest)] else [] := by
  rw [closings, resume, ways_one_cons]
  by_cases hc : c = ')'
  · simp [hc, ways, Way.before, targetWay]
  · simp [hc]

theorem endsHere_closings_nil (seen : List Char) : endsHere closings seen [] = [] := by
  rw [endsHere]
  split <;> simp [closings_nil]

theorem endsHere_closings_cons (seen : List Char) (c : Char) (rest : List Char) :
    endsHere closings seen (c :: rest) =
      if c = ')' ∧ seen ≠ [] then [targetWay (seen.reverse, rest)] else [] := by
  rw [endsHere, closings_cons]
  by_cases hseen : seen = [] <;> by_cases hc : c = ')' <;> simp [hseen, hc]

theorem head?_anyTarget (seen cs : List Char) :
    (endsHere closings seen cs ++ endsLater isNotNewline closings seen cs).head? =
      (anyTarget seen cs).map targetWay := by
  induction cs generalizing seen with
  | nil => rw [endsHere_closings_nil, endsLater_nil]; rfl
  | cons c cs ih =>
      rw [endsHere_closings_cons, endsLater_cons, anyTarget]
      by_cases hclose : c = ')' ∧ seen ≠ []
      · rw [if_pos hclose, if_pos hclose]
        rfl
      · rw [if_neg hclose, if_neg hclose, List.nil_append]
        by_cases hnewline : c = '\n'
        · simp [hnewline, isNotNewline]
        · rw [if_pos (by simpa [isNotNewline] using hnewline), if_neg hnewline, ih]

theorem numberTarget_closings (seen cs : List Char) :
    endsLast Text.isDecimalDigit closings seen cs ++ endsHere closings seen cs =
      ((numberTarget seen cs).map targetWay).toList := by
  induction cs generalizing seen with
  | nil => rw [endsHere_closings_nil, endsLast_nil]; rfl
  | cons c cs ih =>
      rw [endsHere_closings_cons, endsLast_cons, numberTarget]
      by_cases hdigit : Text.isDecimalDigit c = true
      · have hclose : ¬ (c = ')' ∧ seen ≠ []) := by
          rintro ⟨rfl, _⟩
          exact absurd hdigit (by decide)
        rw [if_neg hclose, if_neg hclose, if_pos hdigit, if_pos hdigit, List.append_nil, ih]
      · rw [if_neg hdigit, if_neg hdigit, List.nil_append]
        split <;> rfl

theorem anyTarget_reads : Reads (anyTarget []) (.lazy isNotNewline) := by
  intro cs
  have hhead := head?_anyTarget [] cs
  rw [endsHere_nil, List.nil_append] at hhead
  exact hhead

theorem numberTarget_reads : Reads (numberTarget []) (.greedy Text.isDecimalDigit) := by
  intro cs
  have hall := numberTarget_closings [] cs
  rw [endsHere_nil, List.append_nil] at hall
  rw [ways_greedy]
  change (endsLast Text.isDecimalDigit closings [] cs).head? = _
  rw [hall, Option.head?_toList]

/-!
# Links
-/

def linkWay (r : List Char × List Char × List Char) : Way :=
  ([r.1, [']'], ['('], r.2.1, [')']], r.2.2)

def labelEnds (item : Item) : List Char → List Char → List Way :=
  resume [.one (· = ']'), .one (· = '('), item, .one (· = ')')]

section Links

variable {target : TargetReader} {item : Item}

theorem endsHere_labelEnds_nil (seen : List Char) : endsHere (labelEnds item) seen [] = [] := by
  rw [endsHere]
  split <;> rfl

theorem head?_endsHere_labelEnds (hreads : Reads target item) (seen : List Char) (c : Char)
    (rest : List Char) :
    (endsHere (labelEnds item) seen (c :: rest)).head? =
      (targetHere target seen c rest).map fun r => linkWay (seen.reverse, r) := by
  cases rest with
  | nil =>
      rw [endsHere, targetHere, labelEnds, resume, ways_one_cons, ways_one_nil]
      simp
  | cons d more =>
      rw [endsHere, targetHere, labelEnds, resume, ways_one_cons, ways_one_cons]
      by_cases hhere : c = ']' ∧ d = '(' ∧ seen ≠ []
      · have hmore := hreads more
        simp only [hhere, decide_true, if_true, if_false, List.head?_map, hmore, ne_eq,
          not_false_eq_true, and_self, Option.map_map]
        rfl
      · rw [if_neg hhere]
        by_cases hseen : seen = [] <;> by_cases hc : c = ']' <;> by_cases hd : d = '(' <;>
          simp_all

theorem head?_linkAfter (hreads : Reads target item) (seen cs : List Char) :
    (endsHere (labelEnds item) seen cs ++
        endsLater isNotNewline (labelEnds item) seen cs).head? =
      (linkAfter target seen cs).map linkWay := by
  induction cs generalizing seen with
  | nil => rw [endsHere_labelEnds_nil, endsLater_nil]; rfl
  | cons c cs ih =>
      rw [List.head?_append, head?_endsHere_labelEnds hreads, endsLater_cons, linkAfter]
      cases targetHere target seen c cs with
      | some r => rfl
      | none =>
          by_cases hnewline : c = '\n'
          · simp [hnewline, isNotNewline]
          · rw [if_pos (by simpa [isNotNewline] using hnewline), ih]
            simp [hnewline]

theorem head?_ways_linkPattern (hreads : Reads target item) (cs : List Char) :
    (ways (linkPattern item) ('[' :: cs)).head? =
      (linkAfter target [] cs).map fun r => (linkWay r).before ['['] := by
  have hhead := head?_linkAfter hreads [] cs
  rw [endsHere_nil, List.nil_append] at hhead
  rw [linkPattern, ways_one_cons, if_pos (by decide), List.head?_map, ways_lazy]
  change (endsLater isNotNewline (labelEnds item) [] cs).head?.map _ = _
  rw [hhead, Option.map_map]
  rfl

theorem ways_linkPattern_of_ne {c : Char} (hc : c ≠ '[') (cs : List Char) :
    ways (linkPattern item) (c :: cs) = [] := by
  rw [linkPattern, ways_one_cons, if_neg (by simpa using hc)]

end Links

/-!
# Scanning

Links are looked for from left to right, and after a link behind it.
-/

inductive Scan (item : Item) : List Char → List Piece → Prop where
  | done : Scan item [] []
  | char {c : Char} {rest : List Char} {pieces : List Piece}
      (hways : ways (linkPattern item) (c :: rest) = []) (hrest : Scan item rest pieces) :
      Scan item (c :: rest) (.char c :: pieces)
  | link {text label target rest : List Char} {pieces : List Piece}
      (hways : (ways (linkPattern item) text).head? =
        some ([['['], label, [']'], ['('], target, [')']], rest))
      (hrest : Scan item rest pieces) :
      Scan item text (.link label target :: pieces)

theorem Scan.unique {item : Item} {text : List Char} {pieces others : List Piece}
    (h : Scan item text pieces) (h' : Scan item text others) : pieces = others := by
  induction h generalizing others with
  | done =>
      cases h' with
      | done => rfl
      | link hways _ => cases hways
  | char hways _ ih =>
      cases h' with
      | char _ hrest => rw [ih hrest]
      | link hways' _ =>
          rw [hways] at hways'
          cases hways'
  | link hways _ ih =>
      cases h' with
      | done => cases hways
      | char hways' _ =>
          rw [hways'] at hways
          cases hways
      | link hways' hrest =>
          rw [hways] at hways'
          cases hways'
          rw [ih hrest]

theorem scan_piecesOf {target : TargetReader} {item : Item} (ht : Shortens target)
    (hreads : Reads target item) (text : List Char) :
    Scan item text (piecesOf target ht text) := by
  induction text using pieces_induction ht with
  | nil =>
      rw [piecesOf_nil]
      exact Scan.done
  | char c rest hc ih =>
      rw [piecesOf_char hc]
      apply Scan.char _ ih
      by_cases hbracket : c = '['
      · have hhead := head?_ways_linkPattern hreads rest
        rw [hc hbracket, Option.map_none, ← hbracket] at hhead
        exact List.head?_eq_none_iff.mp hhead
      · exact ways_linkPattern_of_ne hbracket rest
  | link rest l t after hlink ih =>
      rw [piecesOf_link hlink]
      apply Scan.link _ ih
      rw [head?_ways_linkPattern hreads, hlink]
      rfl

/-- Links to anywhere are what a scan finds whose targets are lazy runs of any characters. -/
theorem scan_iff_linkPieces (text : List Char) (pieces : List Piece) :
    Scan (.lazy isNotNewline) text pieces ↔ pieces = linkPieces text := by
  have hscan := scan_piecesOf anyTarget_shortens anyTarget_reads text
  constructor
  · intro h
    exact h.unique hscan
  · rintro rfl
    exact hscan

/-- Numbered links are what a scan finds whose targets are greedy runs of decimal digits. -/
theorem scan_iff_numberedPieces (text : List Char) (pieces : List Piece) :
    Scan (.greedy Text.isDecimalDigit) text pieces ↔ pieces = numberedPieces text := by
  have hscan := scan_piecesOf numberTarget_shortens numberTarget_reads text
  constructor
  · intro h
    exact h.unique hscan
  · rintro rfl
    exact hscan

end Document
end Parley
