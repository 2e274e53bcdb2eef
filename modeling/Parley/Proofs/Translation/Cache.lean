import Parley.Proofs.Naming.Content
import Parley.Translation.Cache

/-!
# The cache as a map

Rows say the entries they were made of, and a row once written is there for good:
inserting changes what is found under the entry's own key, and only if nothing
was found there before.
-/

namespace Parley

theorem Markup.ofString_mime (m : Markup) : Markup.ofString m.mime = .ok m := by
  cases m <;> rfl

theorem Part.ofString_name (p : Part) : Part.ofString p.name = .ok p := by
  cases p <;> rfl

namespace Translation

theorem Row.toEntry_ofEntry (e : Entry) : (Row.ofEntry e).toEntry = .ok e := by
  change (do
    return ⟨← ContentKey.ofHex e.key.toHex, e.content, e.locale,
      ← Markup.ofString e.markup.mime, ← Part.ofString e.part.name, e.createdAt⟩) =
    Except.ok e
  rw [ContentKey.ofHex_toHex, Markup.ofString_mime, Part.ofString_name]
  rfl

namespace Cache

variable {c : Cache} {e : Entry} {key : ContentKey} {row : Row}

theorem row?_eq_none_iff : c.row? key = none ↔ ∀ r ∈ c.rows, r.key ≠ key.toHex := by
  simp [row?, List.find?_eq_none]

theorem row?_insert (c : Cache) (e : Entry) (key : ContentKey) :
    (c.insert e).2.row? key =
      (c.row? key).or (if key = e.key then some (Row.ofEntry e) else none) := by
  rw [insert, addRow]
  split
  · rename_i hany
    by_cases hkey : key = e.key
    · subst hkey
      have hfound : c.row? e.key ≠ none := by
        rw [ne_eq, row?_eq_none_iff]
        intro hnone
        rcases List.any_eq_true.mp hany with ⟨r, hr, hrkey⟩
        exact hnone r hr (beq_iff_eq.mp hrkey)
      rcases Option.ne_none_iff_exists'.mp hfound with ⟨row, hrow⟩
      rw [hrow, Option.some_or]
    · rw [if_neg hkey, Option.or_none]
  · change (c.rows ++ [Row.ofEntry e]).find? (fun r => r.key == key.toHex) = _
    rw [List.find?_append]
    congr 1
    by_cases hkey : key = e.key
    · subst hkey
      simp [Row.ofEntry]
    · have hhex : e.key.toHex ≠ key.toHex := fun h => hkey (ContentKey.toHex_injective h.symm)
      simp [Row.ofEntry, hhex, hkey]

theorem row?_insert_of_some (h : c.row? key = some row) :
    (c.insert e).2.row? key = some row := by
  rw [row?_insert, h, Option.some_or]

theorem row?_insert_of_ne (h : key ≠ e.key) : (c.insert e).2.row? key = c.row? key := by
  rw [row?_insert, if_neg h, Option.or_none]

theorem get_eq_none_iff : c.get key = .ok none ↔ c.row? key = none := by
  rw [get]
  cases c.row? key with
  | none => simp
  | some row =>
      cases hentry : row.toEntry with
      | error e => simp [hentry, Except.map]
      | ok entry => simp [hentry, Except.map]

end Cache
end Translation
end Parley
