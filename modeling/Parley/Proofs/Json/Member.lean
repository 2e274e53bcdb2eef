import Parley.Proofs.Json.Generic
import Parley.Proofs.Json.Magnitude

/-!
# Members of written objects

A value that is nested no deeper than is allowed and holds finite numbers only is read,
and its strings are read as they are. Of the members that share a name the last one counts.
-/

namespace Parley
namespace Json
namespace Value

def depth : Value → Nat
  | .array items => itemDepth items + 1
  | .object ms => memberDepth ms + 1
  | _ => 0
where
  itemDepth : List Value → Nat
    | [] => 0
    | v :: vs => max (depth v) (itemDepth vs)
  memberDepth : List (String × Value) → Nat
    | [] => 0
    | (_, v) :: ms => max (depth v) (memberDepth ms)

def numbers : Value → List Number
  | .number n => [n]
  | .array items => itemNumbers items
  | .object ms => memberNumbers ms
  | _ => []
where
  itemNumbers : List Value → List Number
    | [] => []
    | v :: vs => numbers v ++ itemNumbers vs
  memberNumbers : List (String × Value) → List Number
    | [] => []
    | (_, v) :: ms => numbers v ++ memberNumbers ms

theorem itemNumbers_eq (items : List Value) :
    numbers.itemNumbers items = items.flatMap numbers := by
  induction items with
  | nil => rfl
  | cons v items ih => rw [numbers.itemNumbers, ih, List.flatMap_cons]

theorem memberNumbers_eq (ms : List (String × Value)) :
    numbers.memberNumbers ms = ms.flatMap fun m => m.2.numbers := by
  induction ms with
  | nil => rfl
  | cons m ms ih => rw [numbers.memberNumbers, ih, List.flatMap_cons]

theorem depth_le_itemDepth {items : List Value} {v : Value} (h : v ∈ items) :
    v.depth ≤ depth.itemDepth items := by
  induction items with
  | nil => cases h
  | cons w items ih =>
      rw [depth.itemDepth]
      rcases List.mem_cons.mp h with rfl | h
      · exact Nat.le_max_left _ _
      · exact (ih h).trans (Nat.le_max_right _ _)

theorem depth_le_memberDepth {ms : List (String × Value)} {m : String × Value} (h : m ∈ ms) :
    m.2.depth ≤ depth.memberDepth ms := by
  induction ms with
  | nil => cases h
  | cons n ms ih =>
      rw [depth.memberDepth]
      rcases List.mem_cons.mp h with rfl | h
      · exact Nat.le_max_left _ _
      · exact (ih h).trans (Nat.le_max_right _ _)

/-!
# Reading
-/

theorem exists_areReadAs {room : Nat} {ms : List (String × Value)}
    (h : ∀ m ∈ ms, ∃ w, m.2.IsReadAs room w) : ∃ read, AreReadAs room ms read := by
  induction ms with
  | nil => exact ⟨[], areReadAs_nil room⟩
  | cons m ms ih =>
      obtain ⟨w, hw⟩ := h m (by simp)
      obtain ⟨read, hread⟩ := ih fun n hn => h n (List.mem_cons_of_mem m hn)
      exact ⟨(m.1, w) :: read, hread.cons m.1 hw⟩

theorem exists_itemsReadAs {room : Nat} {items : List Value}
    (h : ∀ v ∈ items, ∃ w, v.IsReadAs room w) :
    ∃ read, List.Forall₂ (IsReadAs room) items read := by
  induction items with
  | nil => exact ⟨[], .nil⟩
  | cons v items ih =>
      obtain ⟨w, hw⟩ := h v (by simp)
      obtain ⟨read, hread⟩ := ih fun u hu => h u (List.mem_cons_of_mem v hu)
      exact ⟨w :: read, .cons hw hread⟩

/-- A value with room for its containers and with finite numbers is read. -/
theorem exists_isReadAs {v : Value} {room : Nat} (hdepth : v.depth ≤ room)
    (hfinite : ∀ n ∈ v.numbers, n.IsFinite) : ∃ w, v.IsReadAs room w := by
  induction v using Value.induction generalizing room with
  | null => exact ⟨.null, rfl⟩
  | bool b => exact ⟨.bool b, rfl⟩
  | number n =>
      obtain ⟨l, hl, hnumber⟩ := (hfinite n (by simp [numbers])).exists_literal
      obtain ⟨k, hk⟩ := Option.isSome_iff_exists.mp hnumber
      refine ⟨.number k, ?_⟩
      rw [IsReadAs, tree, hl]
      simp only [Tree.value?, hk, Option.map_some]
  | string s => exact ⟨.string s, isReadAs_string room s⟩
  | array items ih =>
      rw [depth] at hdepth
      obtain ⟨inner, rfl⟩ := Nat.exists_eq_add_of_le' ((Nat.le_add_left 1 _).trans hdepth)
      obtain ⟨read, hread⟩ := exists_itemsReadAs fun v hv =>
        ih v hv ((depth_le_itemDepth hv).trans (Nat.le_of_succ_le_succ hdepth)) fun n hn =>
          hfinite n (by
            rw [numbers, itemNumbers_eq]
            exact List.mem_flatMap_of_mem hv hn)
      exact ⟨.array read, isReadAs_array hread⟩
  | object ms ih =>
      rw [depth] at hdepth
      obtain ⟨inner, rfl⟩ := Nat.exists_eq_add_of_le' ((Nat.le_add_left 1 _).trans hdepth)
      obtain ⟨read, hread⟩ := exists_areReadAs fun m hm =>
        ih m hm ((depth_le_memberDepth hm).trans (Nat.le_of_succ_le_succ hdepth)) fun n hn =>
          hfinite n (by
            rw [numbers, memberNumbers_eq]
            exact List.mem_flatMap_of_mem hm hn)
      exact ⟨.object (sortMembers read), isReadAs_object hread rfl⟩

theorem IsReadAs.string?_eq {v w : Value} {room : Nat} (h : v.IsReadAs room w) :
    w.string? = v.string? := by
  rw [IsReadAs] at h
  cases v with
  | null =>
      cases h
      rfl
  | bool b =>
      cases h
      rfl
  | number n =>
      rw [tree] at h
      split at h
      · rw [Tree.value?, Option.map_eq_some_iff] at h
        obtain ⟨k, -, rfl⟩ := h
        rfl
      · cases h
        rfl
  | string s =>
      cases h
      rfl
  | array items =>
      rw [tree, Tree.value?] at h
      split at h
      · cases h
      · rw [Option.map_eq_some_iff] at h
        obtain ⟨read, -, rfl⟩ := h
        rfl
  | object ms =>
      rw [tree, Tree.value?] at h
      split at h
      · cases h
      · rw [Option.map_eq_some_iff] at h
        obtain ⟨read, -, rfl⟩ := h
        rfl

/-!
# Names
-/

def lastNamed (name : String) (ms : List (String × Value)) : Option Value :=
  (ms.filter fun m => m.1 == name).getLast?.map (·.2)

end Value

theorem find?_cons_name (m : String × Value) (ms : List (String × Value)) (name : String) :
    (m :: ms).find? (fun n => n.1 == name) =
      if m.1 = name then some m else ms.find? fun n => n.1 == name := by
  rw [List.find?_cons]
  by_cases hm : m.1 = name
  · rw [if_pos hm, beq_iff_eq.mpr hm]
  · rw [if_neg hm, beq_false_of_ne hm]

theorem find?_insertMember (m : String × Value) (sorted : List (String × Value)) (name : String) :
    (insertMember m sorted).find? (fun n => n.1 == name) =
      if m.1 = name then some m else sorted.find? fun n => n.1 == name := by
  induction sorted with
  | nil => exact find?_cons_name m [] name
  | cons n sorted ih =>
      rw [insertMember]
      split
      · exact find?_cons_name m (n :: sorted) name
      · split
        · rename_i hsame
          rw [find?_cons_name, find?_cons_name, ← hsame]
          split <;> rfl
        · rename_i hother
          rw [find?_cons_name, find?_cons_name, ih]
          by_cases hn : n.1 = name
          · rw [if_pos hn, if_pos hn, if_neg fun hm => hother (hm.trans hn.symm)]
          · rw [if_neg hn, if_neg hn]

/-- Where members share a name, the last one is kept. -/
theorem find?_sortMembers (ms : List (String × Value)) (name : String) :
    (sortMembers ms).find? (fun m => m.1 == name) =
      (ms.filter fun m => m.1 == name).getLast? := by
  induction ms using List.reverseRecOn with
  | nil => rfl
  | append_singleton ms m ih =>
      have hsorted : sortMembers (ms ++ [m]) = insertMember m (sortMembers ms) := by
        rw [sortMembers, List.foldl_append]
        rfl
      rw [hsorted, find?_insertMember, ih, List.filter_append]
      by_cases hm : m.1 = name <;> simp [hm]

namespace Value

theorem member?_sortMembers (ms : List (String × Value)) (name : String) :
    (Value.object (sortMembers ms)).member? name = lastNamed name ms := by
  rw [member?, find?_sortMembers]
  rfl

theorem AreReadAs.string?_lastNamed {room : Nat} {ms read : List (String × Value)}
    (h : AreReadAs room ms read) (name : String) :
    (lastNamed name read).bind string? = (lastNamed name ms).bind string? := by
  have hsame : read.map (fun m => (m.1, m.2.string?)) = ms.map fun m => (m.1, m.2.string?) := by
    induction h with
    | nil => rfl
    | cons hm _ ih => rw [List.map_cons, List.map_cons, ih, hm.1, hm.2.string?_eq]
  have hlast : ∀ members : List (String × Value), (lastNamed name members).bind string? =
      ((members.map fun m => (m.1, m.2.string?)).filter fun m => m.1 == name).getLast?.bind
        (·.2) := by
    intro members
    rw [lastNamed, List.filter_map, List.getLast?_map, Option.bind_map, Option.bind_map]
    rfl
  rw [hlast, hlast, hsame]

end Value
end Json
end Parley
