import Mathlib.Data.List.Forall2
import Parley.Proofs.Json.Written

/-!
# Generic values of written texts

What is read of a written value where no particular shape is expected: the value is
built from what is read of its items and members, and the members of an object come in
the order of their names.
-/

namespace Parley
namespace Json

theorem parse?_write (v : Value) : parse? v.write = v.tree.value? Tree.maxDepth := by
  rw [parse?, read_write]

namespace Value

/-- The one value is written, the other one is read of it where so many containers may stand
inside each other. -/
def IsReadAs (room : Nat) (v w : Value) : Prop :=
  v.tree.value? room = some w

theorem isReadAs_string (room : Nat) (s : String) : (Value.string s).IsReadAs room (.string s) :=
  rfl

def AreReadAs (room : Nat) : List (String × Value) → List (String × Value) → Prop :=
  List.Forall₂ fun m n => m.1 = n.1 ∧ m.2.IsReadAs room n.2

variable {room : Nat} {v w : Value} {ms read : List (String × Value)}

theorem areReadAs_nil (room : Nat) : AreReadAs room [] [] :=
  .nil

theorem AreReadAs.cons (name : String) (hv : v.IsReadAs room w) (h : AreReadAs room ms read) :
    AreReadAs room ((name, v) :: ms) ((name, w) :: read) :=
  List.Forall₂.cons ⟨rfl, hv⟩ h

theorem values?_itemTrees {items read : List Value}
    (h : List.Forall₂ (IsReadAs room) items read) :
    Tree.value?.values? room (tree.itemTrees items) = some read := by
  induction h with
  | nil => rfl
  | cons hv _ ih =>
      rw [IsReadAs] at hv
      simp only [tree.itemTrees, Tree.value?.values?, hv, ih]

theorem memberValues?_memberTrees (h : AreReadAs room ms read) :
    Tree.value?.memberValues? room (tree.memberTrees ms) = some read := by
  induction h with
  | nil => rfl
  | @cons m n _ _ hm _ ih =>
      obtain ⟨name, v⟩ := m
      obtain ⟨name', w⟩ := n
      obtain ⟨rfl, hv⟩ := hm
      have hvalue : v.tree.value? room = some w := hv
      simp only [tree.memberTrees, Tree.value?.memberValues?, hvalue, ih]

theorem isReadAs_array {items read : List Value} (h : List.Forall₂ (IsReadAs room) items read) :
    (Value.array items).IsReadAs (room + 1) (.array read) := by
  have hitems := values?_itemTrees h
  rw [IsReadAs, tree, Tree.value?, if_neg (by simp), Nat.add_sub_cancel, hitems]
  rfl

theorem isReadAs_object {sorted : List (String × Value)} (h : AreReadAs room ms read)
    (hsorted : sortMembers read = sorted) :
    (Value.object ms).IsReadAs (room + 1) (.object sorted) := by
  have hms := memberValues?_memberTrees h
  rw [IsReadAs, tree, Tree.value?, if_neg (by simp), Nat.add_sub_cancel, hms, ← hsorted]
  rfl

end Value

end Json

end Parley
