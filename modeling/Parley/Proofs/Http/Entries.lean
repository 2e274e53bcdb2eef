import Parley.Http.Language

/-!
# Entries of a list of languages

The entries of a list stand between commas, and the parts of an entry between
semicolons. The first part is the tag. The weight is the number of the first other
part that gives one, and one where none does.
-/

namespace Parley

/-!
# Pieces
-/

namespace Text

theorem splitOn_eq (sep : Char) (cs : List Char) : splitOn sep cs = cs.splitOn sep := by
  induction cs with
  | nil => rfl
  | cons c cs ih =>
      unfold splitOn at ih ⊢
      rw [List.foldr_cons, ih, List.splitOn, List.splitOn, List.splitOnP_cons_eq_if_modifyHead]
      simp only [beq_iff_eq]
      cases hpieces : cs.splitOnP (· == sep) with
      | nil => exact absurd hpieces (List.splitOnP_ne_nil _ cs)
      | cons piece pieces => rfl

theorem notMem_of_mem_splitOn {sep : Char} {cs piece : List Char} (h : piece ∈ splitOn sep cs) :
    sep ∉ piece := by
  rw [splitOn_eq, List.splitOn] at h
  induction cs generalizing piece with
  | nil =>
      rw [List.splitOnP_nil, List.mem_singleton] at h
      rw [h]
      exact List.not_mem_nil
  | cons c cs ih =>
      rw [List.splitOnP_cons_eq_if_modifyHead] at h
      split at h
      · rcases List.mem_cons.mp h with rfl | hrest
        · exact List.not_mem_nil
        · exact ih hrest
      · rename_i hother
        cases hpieces : cs.splitOnP (· == sep) with
        | nil => exact absurd hpieces (List.splitOnP_ne_nil _ cs)
        | cons first rest =>
            rw [hpieces] at h ih
            rcases List.mem_cons.mp h with rfl | hrest
            · intro hmem
              rcases List.mem_cons.mp hmem with rfl | hfirst
              · exact hother (beq_self_eq_true sep)
              · exact ih List.mem_cons_self hfirst
            · exact ih (List.mem_cons_of_mem first hrest)

theorem splitOn_eq_iff {sep : Char} {cs : List Char} {pieces : List (List Char)}
    (hpieces : pieces ≠ []) :
    splitOn sep cs = pieces ↔ [sep].intercalate pieces = cs ∧ ∀ piece ∈ pieces, sep ∉ piece := by
  constructor
  · rintro rfl
    refine ⟨?_, fun piece => notMem_of_mem_splitOn⟩
    rw [splitOn_eq, List.intercalate_splitOn]
  · rintro ⟨rfl, hfree⟩
    rw [splitOn_eq, List.splitOn_intercalate sep hfree hpieces]

theorem splitOn_ne_nil (sep : Char) (cs : List Char) : splitOn sep cs ≠ [] := by
  rw [splitOn_eq]
  exact List.splitOnP_ne_nil _ cs

end Text

namespace Http
namespace Language

/-- A parameter gives this weight: but for blanks it is `q=` and then the number. -/
def IsWeight (parameter : List Char) (x : Floating) : Prop :=
  ∃ value, Text.trim parameter = 'q' :: '=' :: value ∧
    Floating.ofText? .binary32 (Text.trim value) = some x

inductive FirstWeight : List (List Char) → Floating → Prop
  | none : FirstWeight [] (.one .binary32)
  | here {parameter : List Char} {x : Floating} (h : IsWeight parameter x)
      (rest : List (List Char)) : FirstWeight (parameter :: rest) x
  | later {parameter : List Char} {rest : List (List Char)} {x : Floating}
      (hnone : ∀ y, ¬ IsWeight parameter y) (h : FirstWeight rest x) :
      FirstWeight (parameter :: rest) x

/-- What an entry says, which has a tag that is not blank. -/
def Says (entry : List Char) (c : Choice) : Prop :=
  ∃ tag parameters, [';'].intercalate (tag :: parameters) = entry ∧
    (∀ part ∈ tag :: parameters, ';' ∉ part) ∧ Text.trim tag = c.tag ∧ c.tag ≠ [] ∧
    FirstWeight parameters c.weight

theorem weightOf?_eq_some_iff {parameter : List Char} {x : Floating} :
    weightOf? parameter = some x ↔ IsWeight parameter x := by
  unfold weightOf? IsWeight
  split
  · rename_i value hvalue
    rw [hvalue]
    simp
  · rename_i hother
    refine iff_of_false nofun ?_
    rintro ⟨value, hvalue, _⟩
    exact hother value hvalue

theorem firstWeight_iff {parameters : List (List Char)} {x : Floating} :
    (parameters.findSome? weightOf?).getD (.one .binary32) = x ↔ FirstWeight parameters x := by
  induction parameters with
  | nil =>
      constructor
      · rintro rfl
        exact .none
      · intro h
        cases h with
        | none => rfl
  | cons parameter rest ih =>
      rw [List.findSome?_cons]
      cases hweight : weightOf? parameter with
      | some y =>
          have hy := weightOf?_eq_some_iff.mp hweight
          constructor
          · rintro rfl
            exact .here hy rest
          · intro h
            cases h with
            | here hx =>
                rw [weightOf?_eq_some_iff.mpr hx] at hweight
                exact (Option.some.inj hweight).symm
            | later hnone => exact absurd hy (hnone y)
      | none =>
          have hnone : ∀ y, ¬ IsWeight parameter y := by
            intro y hy
            rw [weightOf?_eq_some_iff.mpr hy] at hweight
            cases hweight
          rw [ih]
          constructor
          · exact .later hnone
          · intro h
            cases h with
            | here hx => exact absurd hx (hnone x)
            | later _ hrest => exact hrest

/-- The tag and the weight of an entry are what it says. -/
theorem choice?_eq_some_iff {entry : List Char} {c : Choice} :
    choice? entry = some c ↔ Says entry c := by
  constructor
  · intro h
    unfold choice? at h
    split at h
    · cases h
    · rename_i tag parameters hparts
      rcases (Text.splitOn_eq_iff (List.cons_ne_nil tag parameters)).mp hparts with ⟨hentry, hfree⟩
      dsimp only at h
      split at h
      · cases h
      · rename_i hempty
        cases h
        exact ⟨tag, parameters, hentry, hfree, rfl, fun hnil => hempty (List.isEmpty_iff.mpr hnil),
          firstWeight_iff.mp rfl⟩
  · rintro ⟨tag, parameters, hentry, hfree, htag, hne, hweight⟩
    have hparts : Text.splitOn ';' entry = tag :: parameters :=
      (Text.splitOn_eq_iff (List.cons_ne_nil tag parameters)).mpr ⟨hentry, hfree⟩
    unfold choice?
    rw [hparts]
    dsimp only
    rw [htag, firstWeight_iff.mpr hweight, if_neg fun hempty => hne (List.isEmpty_iff.mp hempty)]

/-- The choices of a list are what its entries say, in their order. -/
theorem choices_eq_filterMap (value : List Char) :
    ∃ entries, [','].intercalate entries = value ∧ (∀ entry ∈ entries, ',' ∉ entry) ∧
      choices value = entries.filterMap choice? := by
  rcases (Text.splitOn_eq_iff (Text.splitOn_ne_nil ',' value)).mp rfl with ⟨hvalue, hfree⟩
  exact ⟨Text.splitOn ',' value, hvalue, hfree, rfl⟩

end Language
end Http
end Parley
