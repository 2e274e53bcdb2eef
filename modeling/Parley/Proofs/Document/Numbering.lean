import Parley.Proofs.Document.Link

/-!
# Numbering links

The pieces of a text write the text, and its numbered form has the same pieces
with numbers for targets: numbering neither hides a link nor makes a new one.
Both readers of targets see it so, since all that is used of a reader is that it
reads numerals and reads nothing where no target is. Restoring is then the
inverse of numbering.
-/

namespace Parley
namespace Document

/-!
# Pieces
-/

section Pieces

variable {target : TargetReader} {ht : Shortens target}

theorem piecesOf_nil : piecesOf target ht [] = [] := by
  rw [piecesOf]

theorem piecesOf_char {c : Char} {rest : List Char}
    (h : c = '[' → linkAfter target [] rest = none) :
    piecesOf target ht (c :: rest) = .char c :: piecesOf target ht rest := by
  rw [piecesOf]
  split
  · rename_i hc
    split
    · rename_i hlink
      rw [h hc] at hlink
      cases hlink
    · rfl
  · rfl

theorem piecesOf_link {rest l t after : List Char}
    (h : linkAfter target [] rest = some (l, t, after)) :
    piecesOf target ht ('[' :: rest) = .link l t :: piecesOf target ht after := by
  rw [piecesOf, if_pos rfl]
  split
  · rename_i hlink
    rw [h] at hlink
    cases hlink
    rfl
  · rename_i hlink
    rw [h] at hlink
    cases hlink

theorem pieces_induction {motive : List Char → Prop} (ht : Shortens target)
    (nil : motive [])
    (char : ∀ c rest, (c = '[' → linkAfter target [] rest = none) →
      motive rest → motive (c :: rest))
    (link : ∀ rest l t after, linkAfter target [] rest = some (l, t, after) →
      motive after → motive ('[' :: rest))
    (text : List Char) : motive text := by
  match text with
  | [] => exact nil
  | c :: rest =>
      by_cases hc : c = '['
      · subst hc
        cases hlink : linkAfter target [] rest with
        | none =>
            exact char '[' rest (fun _ => hlink) (pieces_induction ht nil char link rest)
        | some r =>
            have hshort := linkAfter_length ht hlink
            exact link rest r.1 r.2.1 r.2.2 hlink
              (pieces_induction ht nil char link r.2.2)
      · exact char c rest (fun h => absurd h hc) (pieces_induction ht nil char link rest)
termination_by text.length
decreasing_by
  all_goals simp only [List.length_cons]
  all_goals omega

theorem write_link {rest l t after : List Char}
    (htarget : ∀ cs t rest, target cs = some (t, rest) → cs = t ++ ')' :: rest)
    (h : linkAfter target [] rest = some (l, t, after)) :
    writeLink l t ++ after = '[' :: rest := by
  rcases linkAfter_eq_some_iff.mp h with ⟨more, rfl, hmore, _⟩
  rw [htarget _ _ _ hmore]
  simp [writeLink]

end Pieces

theorem anyTarget_write {cs t rest : List Char} (h : anyTarget [] cs = some (t, rest)) :
    cs = t ++ ')' :: rest := by
  rcases anyTarget_eq_some h with ⟨read, rfl, rfl, _⟩
  simp

theorem flatMap_write_linkPieces (text : List Char) :
    (linkPieces text).flatMap Piece.write = text := by
  induction text using pieces_induction anyTarget_shortens with
  | nil => rw [linkPieces, piecesOf_nil, List.flatMap_nil]
  | char c rest hc ih =>
      rw [linkPieces, piecesOf_char hc, List.flatMap_cons]
      exact congrArg (c :: ·) ih
  | link rest l t after hlink ih =>
      rw [linkPieces, piecesOf_link hlink, List.flatMap_cons]
      change writeLink l t ++ (linkPieces after).flatMap Piece.write = '[' :: rest
      rw [ih, write_link (fun _ _ _ => anyTarget_write) hlink]

/-!
# Readers that find numbered links
-/

structure ReadsNumerals (target : TargetReader) : Prop where
  digits : ∀ n rest, target (Text.digits n ++ ')' :: rest) = some (Text.digits n, rest)
  isTarget : ∀ cs, (target cs).isSome → (anyTarget [] cs).isSome

theorem anyTarget_readsNumerals : ReadsNumerals (anyTarget []) where
  digits n _ := by
    have hplain : ∀ c, Text.isAsciiDigit c = false → c ∉ Text.digits n := by
      intro c hc hmem
      rw [Text.isAsciiDigit_of_mem_digits hmem] at hc
      cases hc
    exact anyTarget_append (Or.inr (Text.digits_ne_nil n)) (hplain '\n' (by decide))
      (hplain ')' (by decide))
  isTarget _ h := h

theorem numberTarget_readsNumerals : ReadsNumerals (numberTarget []) where
  digits n _ :=
    numberTarget_append (Or.inr (Text.digits_ne_nil n)) fun _ hc =>
      Text.isDecimalDigit_of_isAsciiDigit (Text.isAsciiDigit_of_mem_digits hc)
  isTarget _ h := anyTarget_isSome_of_numberTarget h

/-- Between a label and its target there is no other place for a target to begin. -/
theorem Closes.of_anyTarget {target : TargetReader} {label more more' : List Char}
    (h : Closes (anyTarget []) [] label more) (hmore : (anyTarget [] more).isSome) :
    Closes target [] label more' where
  oneLine := h.oneLine
  nonempty := h.nonempty
  shortest a b hlabel hne := by
    have hline : '\n' ∉ b ++ [']', '('] := by
      intro hmem
      rcases List.mem_append.mp hmem with hb | hpair
      · exact h.oneLine (by simp [hlabel, hb])
      · exact absurd hpair (by decide)
    have hsome := anyTarget_isSome_append [] hline hmore
    have hnone := h.shortest a b hlabel hne
    rw [List.append_assoc] at hsome
    change (anyTarget [] (b ++ ']' :: '(' :: more)).isSome at hsome
    rw [hnone] at hsome
    cases hsome

/-!
# Numbered texts
-/

def numberPieces (n : Nat) : List Piece → List Piece
  | [] => []
  | .char c :: rest => .char c :: numberPieces n rest
  | .link label _ :: rest => .link label (Text.digits n) :: numberPieces (n + 1) rest

/-- The numbered form of a text, and what it is for a text that begins in one way or another. -/
def numberedText (n : Nat) (text : List Char) : List Char :=
  writeNumbered n (linkPieces text)

theorem numberedText_nil (n : Nat) : numberedText n [] = [] := by
  rw [numberedText, linkPieces, piecesOf_nil, writeNumbered]

theorem numberedText_char {n : Nat} {c : Char} {rest : List Char}
    (h : c = '[' → linkAfter (anyTarget []) [] rest = none) :
    numberedText n (c :: rest) = c :: numberedText n rest := by
  rw [numberedText, linkPieces, piecesOf_char h, writeNumbered]
  rfl

theorem numberedText_link {n : Nat} {rest l t after : List Char}
    (h : linkAfter (anyTarget []) [] rest = some (l, t, after)) :
    numberedText n ('[' :: rest) =
      '[' :: (l ++ ']' :: '(' :: (Text.digits n ++ ')' :: numberedText (n + 1) after)) := by
  rw [numberedText, linkPieces, piecesOf_link h, writeNumbered]
  simp [writeLink, numberedText, linkPieces]

theorem numberedText_eq_cons {n : Nat} {text rest : List Char} {c : Char} (hc : c ≠ '[')
    (h : numberedText n text = c :: rest) :
    ∃ after, text = c :: after ∧ rest = numberedText n after := by
  induction text using pieces_induction anyTarget_shortens with
  | nil =>
      rw [numberedText_nil] at h
      cases h
  | char d after hd =>
      rw [numberedText_char hd] at h
      injection h with hcd hrest
      exact ⟨after, by rw [hcd], hrest.symm⟩
  | link after l t more hlink =>
      rw [numberedText_link hlink] at h
      injection h with hbracket
      exact absurd hbracket.symm hc

theorem anyTarget_of_numberedText {n : Nat} {seen text : List Char}
    (h : (anyTarget seen (numberedText n text)).isSome) : (anyTarget seen text).isSome := by
  induction text using pieces_induction anyTarget_shortens generalizing seen with
  | nil =>
      rw [numberedText_nil] at h
      exact h
  | char c rest hc ih =>
      rw [numberedText_char hc, anyTarget] at h
      rw [anyTarget]
      split at h
      · rename_i hclose
        rw [if_pos hclose]
        rfl
      · rename_i hclose
        split at h
        · cases h
        · rename_i hnewline
          rw [if_neg hclose, if_neg hnewline]
          exact ih h
  | link rest l t after hlink =>
      rcases linkAfter_eq_some_iff.mp hlink with ⟨more, rfl, hmore, hcloses⟩
      have hline : '\n' ∉ '[' :: (l ++ [']', '(']) := by
        intro hmem
        rcases List.mem_append.mp ((List.mem_cons.mp hmem).resolve_left (by decide)) with
          hl | hpair
        · exact hcloses.oneLine hl
        · exact absurd hpair (by decide)
      have hread : (anyTarget [] more).isSome := by rw [hmore]; rfl
      have hsome := anyTarget_isSome_append seen hline hread
      simpa using hsome

theorem linkAfter_of_numberedText {target : TargetReader} (ht : ReadsNumerals target) {n : Nat}
    {seen text : List Char} (h : (linkAfter target seen (numberedText n text)).isSome) :
    (linkAfter (anyTarget []) seen text).isSome := by
  induction text using pieces_induction anyTarget_shortens generalizing seen with
  | nil =>
      rw [numberedText_nil] at h
      cases h
  | char c rest hc ih =>
      rw [numberedText_char hc, linkAfter] at h
      split at h
      · rename_i hhere
        rcases targetHere_eq_some hhere with ⟨rfl, hseen, more, hmore, htarget⟩
        rcases numberedText_eq_cons (by decide) hmore with ⟨after, rfl, rfl⟩
        have hafter : (anyTarget [] after).isSome :=
          anyTarget_of_numberedText (ht.isTarget _ (by rw [htarget]; rfl))
        rcases Option.isSome_iff_exists.mp hafter with ⟨r, hr⟩
        rw [linkAfter, targetHere_close hseen, hr]
        rfl
      · split at h
        · cases h
        · rename_i hnewline
          rw [linkAfter]
          split
          · rfl
          · rw [if_neg hnewline]
            exact ih h
  | link rest l t after hlink =>
      have hsome : (linkAfter (anyTarget []) ('[' :: seen) rest).isSome :=
        linkAfter_isSome_of_seen (fun hnil => absurd rfl hnil) (by rw [hlink]; rfl)
      rw [linkAfter]
      split
      · rfl
      · rw [if_neg (by decide)]
        exact hsome

/-- Numbering neither hides a link nor makes one. -/
theorem piecesOf_numberedText {target : TargetReader} (hshort : Shortens target)
    (ht : ReadsNumerals target) (n : Nat) (text : List Char) :
    piecesOf target hshort (numberedText n text) = numberPieces n (linkPieces text) := by
  induction text using pieces_induction anyTarget_shortens generalizing n with
  | nil =>
      rw [numberedText_nil, linkPieces, piecesOf_nil, piecesOf_nil, numberPieces]
  | char c rest hc ih =>
      have hnone : c = '[' → linkAfter target [] (numberedText n rest) = none := by
        intro hbracket
        rw [← Option.not_isSome_iff_eq_none]
        intro hsome
        have hlink := linkAfter_of_numberedText ht hsome
        rw [hc hbracket] at hlink
        cases hlink
      rw [numberedText_char hc, piecesOf_char hnone, linkPieces, piecesOf_char hc, numberPieces,
        ih n, linkPieces]
  | link rest l t after hlink ih =>
      rcases linkAfter_eq_some_iff.mp hlink with ⟨more, _, hmore, hcloses⟩
      have hnumber : linkAfter target []
          (l ++ ']' :: '(' :: (Text.digits n ++ ')' :: numberedText (n + 1) after)) =
            some (l, Text.digits n, numberedText (n + 1) after) :=
        linkAfter_eq_some_iff.mpr ⟨_, rfl, ht.digits n _,
          hcloses.of_anyTarget (by rw [hmore]; rfl)⟩
      rw [numberedText_link hlink, piecesOf_link hnumber, linkPieces, piecesOf_link hlink,
        numberPieces, ih (n + 1), linkPieces]

/-!
# Restoring
-/

theorem restoredTarget_digits {table : List String} {n : Nat} {target : String}
    (h : table[n]? = some target) :
    restoredTarget table (Text.digits n) = target.toList := by
  simp [restoredTarget, Text.natOfDigits?_digits, h]

theorem flatMap_restore_numberPieces (table : List String) (pieces : List Piece) :
    (numberPieces table.length pieces).flatMap
        (Piece.restore (table ++ (pieces.filterMap Piece.target?).map String.ofList)) =
      pieces.flatMap Piece.write := by
  induction pieces generalizing table with
  | nil => rfl
  | cons p pieces ih =>
      cases p with
      | char c =>
          simp only [numberPieces, List.filterMap_cons, Piece.target?, List.flatMap_cons,
            Piece.restore, Piece.write, ih table]
      | link label target =>
          have hrest := ih (table ++ [String.ofList target])
          have hfound :
              (table ++ String.ofList target ::
                (pieces.filterMap Piece.target?).map String.ofList)[table.length]? =
                  some (String.ofList target) := by
            simp
          simp only [List.append_assoc, List.length_append, List.length_singleton,
            List.singleton_append] at hrest
          simp only [numberPieces, List.filterMap_cons, Piece.target?, List.map_cons,
            List.flatMap_cons, Piece.restore, Piece.write, restoredTarget_digits hfound, hrest,
            String.toList_ofList]

theorem restoreLinks_numberLinks (text : String) :
    restoreLinks (numberLinks text).2 (numberLinks text).1 = text := by
  have hpieces :
      numberedPieces (writeNumbered 0 (linkPieces text.toList)) =
        numberPieces 0 (linkPieces text.toList) :=
    piecesOf_numberedText numberTarget_shortens numberTarget_readsNumerals 0 text.toList
  have hrestore := flatMap_restore_numberPieces [] (linkPieces text.toList)
  rw [List.nil_append, List.length_nil] at hrestore
  simp only [restoreLinks, numberLinks, String.toList_ofList, hpieces, hrestore,
    flatMap_write_linkPieces, String.ofList_toList]

end Document
end Parley
