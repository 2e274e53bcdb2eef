import Mathlib.Order.Bounds.Basic
import Parley.Proofs.Document.Cutting

/-!
# The fewest chunks

Chunks are joined runs of consecutive pieces, and no way of cutting the pieces
into runs that fit the window needs fewer of them. A piece may have to stand
alone because it is too large, and empty pieces count for nothing: a run may hold
some, and those behind the last run are dropped.
-/

namespace Parley
namespace Document

def filled (pieces : List String) : List String :=
  pieces.filter (· ≠ "")

/-- Chunks and the runs of pieces that they are made of. -/
structure IsPacked (window : Nat) (pieces chunks : List String) (runs : List (List String)) :
    Prop where
  chunks_eq : chunks = runs.map String.join
  pieces_eq : ∃ rest, pieces = runs.flatten ++ rest ∧ ∀ piece ∈ rest, piece = ""
  ne_empty : ∀ run ∈ runs, String.join run ≠ ""
  alone : ∀ run ∈ runs, window < (String.join run).length → (filled run).length = 1

/-- Pieces in consecutive groups that have room in the window or hold one piece alone. -/
structure IsCut (window : Nat) (pieces : List String) (groups : List (List String)) : Prop where
  flatten_eq : groups.flatten = pieces
  ne_nil : ∀ group ∈ groups, group ≠ []
  fits : ∀ group ∈ groups, (String.join group).length ≤ window ∨ group.length = 1

/-!
# Empty pieces
-/

theorem filled_nil : filled [] = [] :=
  rfl

theorem filled_empty_cons (pieces : List String) : filled ("" :: pieces) = filled pieces := by
  simp [filled]

theorem filled_cons {piece : String} (hpiece : piece ≠ "") (pieces : List String) :
    filled (piece :: pieces) = piece :: filled pieces := by
  simp [filled, hpiece]

theorem filled_append (pieces more : List String) :
    filled (pieces ++ more) = filled pieces ++ filled more :=
  List.filter_append pieces more

theorem filled_eq_nil {pieces : List String} (h : ∀ piece ∈ pieces, piece = "") :
    filled pieces = [] := by
  apply List.filter_eq_nil_iff.mpr
  intro piece hpiece
  simpa using h piece hpiece

theorem filled_eq_self {pieces : List String} (h : ∀ piece ∈ pieces, piece ≠ "") :
    filled pieces = pieces := by
  apply List.filter_eq_self.mpr
  intro piece hpiece
  simpa using h piece hpiece

theorem join_filled (pieces : List String) : String.join (filled pieces) = String.join pieces := by
  induction pieces with
  | nil => rfl
  | cons piece pieces ih =>
      by_cases hpiece : piece = ""
      · rw [hpiece, filled_empty_cons, String.join_cons, String.empty_append, ih]
      · rw [filled_cons hpiece, String.join_cons, String.join_cons, ih]

theorem flatten_map_filled (runs : List (List String)) :
    (runs.map filled).flatten = filled runs.flatten := by
  induction runs with
  | nil => rfl
  | cons run runs ih =>
      rw [List.map_cons, List.flatten_cons, List.flatten_cons, filled_append, ih]

theorem join_singleton (piece : String) : String.join [piece] = piece := by
  rw [String.join_cons, String.join_nil, String.append_empty]

theorem join_eq_empty_iff {pieces : List String} :
    String.join pieces = "" ↔ ∀ piece ∈ pieces, piece = "" := by
  induction pieces with
  | nil => simp
  | cons piece pieces ih =>
      rw [String.join_cons, List.forall_mem_cons, ← ih]
      exact String.append_eq_empty_iff

/-!
# One piece
-/

section Steps

variable {window : Nat} {current piece : String} {rest : List String}

theorem packAfter_of_full (hcurrent : current ≠ "")
    (hfull : window < current.length + piece.length) :
    packAfter window current (piece :: rest) = current :: packAfter window piece rest := by
  rw [packAfter, if_pos]
  simp [hcurrent, hfull]

theorem packAfter_of_room (h : current = "" ∨ current.length + piece.length ≤ window) :
    packAfter window current (piece :: rest) = packAfter window (current ++ piece) rest := by
  rw [packAfter, if_neg]
  cases h with
  | inl hempty => simp [hempty]
  | inr hroom => simp [Nat.not_lt.mpr hroom]

theorem packAfter_empty_cons :
    packAfter window "" (piece :: rest) = packAfter window piece rest := by
  rw [packAfter_of_room (Or.inl rfl), String.empty_append]

theorem packAfter_nil (hcurrent : current ≠ "") : packAfter window current [] = [current] := by
  rw [packAfter, if_neg]
  simpa using hcurrent

theorem packAfter_empty_nil : packAfter window "" [] = [] :=
  rfl

theorem packAfter_of_large (hlarge : window < current.length) (pieces : List String) :
    packAfter window current pieces = current :: packAfter window "" pieces := by
  have hcurrent : current ≠ "" := by
    rintro rfl
    exact Nat.not_lt_zero window hlarge
  cases pieces with
  | nil => rw [packAfter_nil hcurrent, packAfter_empty_nil]
  | cons piece rest =>
      rw [packAfter_of_full hcurrent (Nat.lt_add_right _ hlarge), packAfter_empty_cons]

end Steps

theorem packAfter_filled (window : Nat) (current : String) (pieces : List String) :
    packAfter window current (filled pieces) = packAfter window current pieces := by
  induction pieces generalizing current with
  | nil => rfl
  | cons piece pieces ih =>
      by_cases hpiece : piece = ""
      · rw [hpiece, filled_empty_cons]
        by_cases hlarge : window < current.length
        · have hcurrent : current ≠ "" := by
            rintro rfl
            exact Nat.not_lt_zero window hlarge
          rw [packAfter_of_large hlarge, packAfter_of_full hcurrent hlarge, ih]
        · rw [packAfter_of_room (Or.inr (Nat.not_lt.mp hlarge)), String.append_empty, ih]
      · rw [filled_cons hpiece, packAfter, packAfter, ih, ih]

/-!
# Runs

The run under way is carried along: it is what the chunk under way is made of.
-/

theorem IsPacked.leave {window : Nat} {run : List String} (h : String.join run = "") :
    IsPacked window run [] [] where
  chunks_eq := rfl
  pieces_eq := ⟨run, rfl, join_eq_empty_iff.mp h⟩
  ne_empty _ hmem := absurd hmem List.not_mem_nil
  alone _ hmem := absurd hmem List.not_mem_nil

theorem IsPacked.cons {window : Nat} {run pieces chunks : List String}
    {runs : List (List String)} (hne : String.join run ≠ "")
    (halone : window < (String.join run).length → (filled run).length = 1)
    (h : IsPacked window pieces chunks runs) :
    IsPacked window (run ++ pieces) (String.join run :: chunks) (run :: runs) where
  chunks_eq := by rw [h.chunks_eq, List.map_cons]
  pieces_eq := by
    rcases h.pieces_eq with ⟨rest, hpieces, hrest⟩
    exists rest
    constructor
    · rw [hpieces, List.flatten_cons, List.append_assoc]
    · exact hrest
  ne_empty := List.forall_mem_cons.mpr ⟨hne, h.ne_empty⟩
  alone := List.forall_mem_cons.mpr ⟨halone, h.alone⟩

theorem alone_singleton {window : Nat} {piece : String}
    (hlarge : window < (String.join [piece]).length) : (filled [piece]).length = 1 := by
  have hpiece : piece ≠ "" := by
    rintro rfl
    exact Nat.not_lt_zero window hlarge
  rw [filled_cons hpiece, filled_nil, List.length_singleton]

theorem alone_append {window : Nat} {run : List String} {piece : String}
    (h : String.join run = "" ∨ (String.join run).length + piece.length ≤ window)
    (hlarge : window < (String.join (run ++ [piece])).length) :
    (filled (run ++ [piece])).length = 1 := by
  rw [String.join_append, join_singleton] at hlarge
  cases h with
  | inl hempty =>
      rw [hempty, String.empty_append] at hlarge
      rw [filled_append, filled_eq_nil (join_eq_empty_iff.mp hempty), List.nil_append]
      exact alone_singleton (by rw [join_singleton]; exact hlarge)
  | inr hroom =>
      rw [String.length_append] at hlarge
      exact absurd hroom (Nat.not_le.mpr hlarge)

theorem exists_isPacked_packAfter {window : Nat} {run : List String}
    (halone : window < (String.join run).length → (filled run).length = 1)
    (pieces : List String) :
    ∃ runs, IsPacked window (run ++ pieces) (packAfter window (String.join run) pieces) runs := by
  induction pieces generalizing run with
  | nil =>
      by_cases hempty : String.join run = ""
      · exists []
        rw [hempty, packAfter_empty_nil, List.append_nil]
        exact IsPacked.leave hempty
      · exists [run]
        rw [packAfter_nil hempty]
        exact IsPacked.cons hempty halone (IsPacked.leave String.join_nil)
  | cons piece pieces ih =>
      by_cases hroom :
          String.join run = "" ∨ (String.join run).length + piece.length ≤ window
      · rcases ih (alone_append hroom) with ⟨runs, hruns⟩
        exists runs
        rw [packAfter_of_room hroom]
        rw [String.join_append, join_singleton, List.append_assoc] at hruns
        exact hruns
      · rw [not_or, Nat.not_le] at hroom
        have hnext : window < (String.join [piece]).length → (filled [piece]).length = 1 :=
          alone_singleton
        rcases ih hnext with ⟨runs, hruns⟩
        exists run :: runs
        rw [packAfter_of_full hroom.left hroom.right]
        rw [join_singleton] at hruns
        exact IsPacked.cons hroom.left halone hruns

theorem exists_isPacked (window : Nat) (pieces : List String) :
    ∃ runs, IsPacked window pieces (pack window pieces) runs := by
  have halone : window < (String.join []).length → (filled []).length = 1 :=
    fun hlarge => absurd hlarge (Nat.not_lt_zero window)
  exact exists_isPacked_packAfter halone pieces

theorem IsPacked.chunk_ne_empty {window : Nat} {pieces chunks : List String}
    {runs : List (List String)} (h : IsPacked window pieces chunks runs) :
    ∀ chunk ∈ chunks, chunk ≠ "" := by
  intro chunk hchunk
  rw [h.chunks_eq] at hchunk
  rcases List.mem_map.mp hchunk with ⟨run, hrun, rfl⟩
  exact h.ne_empty run hrun

/-- The runs of the chunks, less their empty pieces, are one way of cutting. -/
theorem IsPacked.isCut {window : Nat} {pieces chunks : List String} {runs : List (List String)}
    (h : IsPacked window pieces chunks runs) :
    IsCut window (filled pieces) (runs.map filled) where
  flatten_eq := by
    rcases h.pieces_eq with ⟨rest, hpieces, hrest⟩
    rw [flatten_map_filled, hpieces, filled_append, filled_eq_nil hrest, List.append_nil]
  ne_nil := by
    intro group hgroup hnil
    rcases List.mem_map.mp hgroup with ⟨run, hrun, rfl⟩
    apply h.ne_empty run hrun
    rw [← join_filled, hnil, String.join_nil]
  fits := by
    intro group hgroup
    rcases List.mem_map.mp hgroup with ⟨run, hrun, rfl⟩
    rw [join_filled]
    by_cases hlarge : window < (String.join run).length
    · exact Or.inr (h.alone run hrun hlarge)
    · exact Or.inl (Nat.not_lt.mp hlarge)

/-!
# Other ways of cutting
-/

theorem length_packAfter_nil (window : Nat) {current : String} :
    (packAfter window current []).length = if current = "" then 0 else 1 := by
  by_cases hcurrent : current = ""
  · rw [hcurrent, packAfter_empty_nil, if_pos rfl, List.length_nil]
  · rw [packAfter_nil hcurrent, if_neg hcurrent, List.length_singleton]

/-- A fuller chunk under way never helps, and costs one chunk at most. Each half needs the other:
where only one of the two chunks has room for a piece, the other one begins anew. -/
theorem length_packAfter_bounds (window : Nat) (a b : String) (pieces : List String) :
    (a.length ≤ b.length →
        (packAfter window a pieces).length ≤ (packAfter window b pieces).length) ∧
      (packAfter window b pieces).length ≤ (packAfter window a pieces).length + 1 := by
  induction pieces generalizing a b with
  | nil =>
      rw [length_packAfter_nil, length_packAfter_nil]
      constructor
      · intro hle
        have hempty : b = "" → a = "" := by
          rintro rfl
          exact String.length_eq_zero_iff.mp (Nat.le_zero.mp hle)
        by_cases hb : b = ""
        · rw [if_pos (hempty hb)]
          exact Nat.zero_le _
        · rw [if_neg hb]
          split <;> decide
      · apply Nat.le_add_left_of_le
        split <;> decide
  | cons piece pieces ih =>
      have hanew : ∀ x : String, (packAfter window piece pieces).length ≤
          (packAfter window (x ++ piece) pieces).length := by
        intro x
        apply (ih piece (x ++ piece)).left
        rw [String.length_append]
        exact Nat.le_add_left _ _
      by_cases ha : a = "" ∨ a.length + piece.length ≤ window
      · by_cases hb : b = "" ∨ b.length + piece.length ≤ window
        · rw [packAfter_of_room ha, packAfter_of_room hb]
          constructor
          · intro hle
            apply (ih (a ++ piece) (b ++ piece)).left
            rw [String.length_append, String.length_append]
            exact Nat.add_le_add_right hle _
          · exact (ih (a ++ piece) (b ++ piece)).right
        · rw [not_or, Nat.not_le] at hb
          rw [packAfter_of_room ha, packAfter_of_full hb.left hb.right, List.length_cons]
          constructor
          · intro _
            exact (ih piece (a ++ piece)).right
          · exact Nat.succ_le_succ (hanew a)
      · by_cases hb : b = "" ∨ b.length + piece.length ≤ window
        · rw [not_or, Nat.not_le] at ha
          rw [packAfter_of_full ha.left ha.right, packAfter_of_room hb, List.length_cons]
          constructor
          · intro hle
            exfalso
            cases hb with
            | inl hempty =>
                rw [hempty] at hle
                exact ha.left (String.length_eq_zero_iff.mp (Nat.le_zero.mp hle))
            | inr hroom =>
                have hroom' := Nat.le_trans (Nat.add_le_add_right hle piece.length) hroom
                exact absurd hroom' (Nat.not_le.mpr ha.right)
          · exact Nat.le_succ_of_le (ih piece (b ++ piece)).right
        · rw [not_or, Nat.not_le] at ha hb
          rw [packAfter_of_full ha.left ha.right, packAfter_of_full hb.left hb.right]
          constructor
          · intro _
            exact Nat.le_refl _
          · exact Nat.le_succ _

theorem packAfter_of_group {window : Nat} {current : String} {group : List String}
    (hroom : current.length + (String.join group).length ≤ window) (rest : List String) :
    packAfter window current (group ++ rest) =
      packAfter window (current ++ String.join group) rest := by
  induction group generalizing current with
  | nil => rw [List.nil_append, String.join_nil, String.append_empty]
  | cons piece group ih =>
      rw [String.join_cons, String.length_append, ← Nat.add_assoc] at hroom
      have hpiece : current.length + piece.length ≤ window :=
        Nat.le_trans (Nat.le_add_right _ _) hroom
      rw [List.cons_append, packAfter_of_room (Or.inr hpiece),
        ih (by rw [String.length_append]; exact hroom), String.join_cons, String.append_assoc]

/-- Whatever follows, one chunk is enough for a group. -/
theorem length_pack_group_append {window : Nat} {group : List String}
    (hfits : (String.join group).length ≤ window ∨ group.length = 1) (rest : List String) :
    (pack window (group ++ rest)).length ≤ (pack window rest).length + 1 := by
  have hgroup : packAfter window "" (group ++ rest) =
      packAfter window (String.join group) rest := by
    cases hfits with
    | inl hroom =>
        rw [packAfter_of_group (by simpa using hroom), String.empty_append]
    | inr hsingle =>
        rcases List.length_eq_one_iff.mp hsingle with ⟨piece, rfl⟩
        rw [List.singleton_append, packAfter_empty_cons, join_singleton]
  rw [pack, hgroup]
  exact (length_packAfter_bounds window "" (String.join group) rest).right

theorem IsCut.length_pack_le {window : Nat} {pieces : List String}
    {groups : List (List String)} (h : IsCut window (filled pieces) groups) :
    (pack window pieces).length ≤ groups.length := by
  have hall : ∀ groups : List (List String),
      (∀ group ∈ groups, (String.join group).length ≤ window ∨ group.length = 1) →
        (pack window groups.flatten).length ≤ groups.length := by
    intro groups hfits
    induction groups with
    | nil => exact Nat.le_refl 0
    | cons group groups ih =>
        rw [List.forall_mem_cons] at hfits
        rw [List.flatten_cons, List.length_cons]
        exact Nat.le_trans (length_pack_group_append hfits.left groups.flatten)
          (Nat.succ_le_succ (ih hfits.right))
  rw [pack, ← packAfter_filled, ← h.flatten_eq]
  exact hall groups h.fits

/-!
# Packing
-/

/-- Chunks are joined runs of the pieces, none is empty, only a piece that stands alone is larger
than the window, and no other way of cutting the pieces needs fewer runs. -/
theorem pack_fewest (window : Nat) (pieces : List String) :
    (∀ chunk ∈ pack window pieces, chunk ≠ "") ∧
      String.join (pack window pieces) = String.join pieces ∧
      (∃ runs, IsPacked window pieces (pack window pieces) runs) ∧
      IsLeast {n | ∃ groups, IsCut window (filled pieces) groups ∧ groups.length = n}
        (pack window pieces).length := by
  rcases exists_isPacked window pieces with ⟨runs, hruns⟩
  constructor
  · exact hruns.chunk_ne_empty
  constructor
  · exact join_pack window pieces
  constructor
  · exact ⟨runs, hruns⟩
  constructor
  · exists runs.map filled
    constructor
    · exact hruns.isCut
    · rw [hruns.chunks_eq, List.length_map, List.length_map]
  · rintro n ⟨groups, hgroups, rfl⟩
    exact hgroups.length_pack_le

/-- One piece is too large, and empty ones stand around it, where they change nothing. -/
theorem pack_fewest_of_large_piece :
    let pieces := ["", "ab", "c", "", "dddddd", "", "e", "ff", ""]
    pack 4 pieces = ["abc", "dddddd", "eff"] ∧
      ∀ groups, IsCut 4 ["ab", "c", "dddddd", "e", "ff"] groups → 3 ≤ groups.length := by
  intro pieces
  have hchunks : pack 4 pieces = ["abc", "dddddd", "eff"] := by decide +kernel
  have hfilled : filled pieces = ["ab", "c", "dddddd", "e", "ff"] := by decide +kernel
  have hleast := (pack_fewest 4 pieces).right.right.right.right
  rw [hchunks, hfilled] at hleast
  constructor
  · exact hchunks
  · intro groups hgroups
    exact hleast ⟨groups, hgroups, rfl⟩

end Document
end Parley
