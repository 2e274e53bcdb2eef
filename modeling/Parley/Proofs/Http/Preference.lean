import Mathlib.Data.List.Pairwise
import Parley.Proofs.Http.Entries
import Parley.Proofs.Http.Locale
import Parley.Proofs.Number.Order

/-!
# The language of the greatest weight

Of the languages with a weight greater than zero the one of the greatest weight is
preferred, and of several the first, so the order of languages of different weights does
not matter. All of this is lost to a weight that is no number where it comes before
every weight greater than zero: nothing is greater, and so its language is preferred.
-/

namespace Parley
namespace Http
namespace Language

/-- The first language of the greatest weight, and this weight is greater than zero. -/
def IsPreferred (cs : List Choice) (c : Choice) : Prop :=
  ∃ before after v, cs = before ++ c :: after ∧ c.weight.value? = some v ∧ 0 < v ∧
    (∀ b ∈ before, ∀ w ∈ b.weight.value?, w < v) ∧ ∀ a ∈ after, ∀ w ∈ a.weight.value?, w ≤ v

def IsBest (cs : List Choice) : Option Choice → Prop
  | none => ∀ c ∈ cs, ∀ w ∈ c.weight.value?, w ≤ 0
  | some c => IsPreferred cs c

/-- Before each weight that is no number there is one that is greater than zero. -/
def NumberLeads (cs : List Choice) : Prop :=
  ∀ before c after, cs = before ++ c :: after → c.weight = .nan →
    ∃ b ∈ before, ∃ v ∈ b.weight.value?, 0 < v

/-!
# The best so far
-/

variable {cs : List Choice} {next : Choice}

theorem le_zero_iff (x : Floating) :
    x.le (.zero .binary32) = true ↔ ∃ w ∈ x.value?, w ≤ 0 := by
  rw [Floating.le_iff, Floating.value?_zero]
  simp

theorem not_le_zero {x : Floating} (h : ∃ v ∈ x.value?, 0 < v) : ¬∃ w ∈ x.value?, w ≤ 0 := by
  rintro ⟨w, hw, hle⟩
  obtain ⟨v, hv, hpos⟩ := h
  obtain rfl := Option.mem_unique hv hw
  exact absurd hle (not_le.mpr hpos)

namespace IsPreferred

variable {c : Choice}

theorem value_le (h : IsPreferred cs c) {b : Choice} (hb : b ∈ cs) :
    ∀ v ∈ c.weight.value?, ∀ w ∈ b.weight.value?, w ≤ v := by
  obtain ⟨before, after, v, rfl, hc, -, hbefore, hafter⟩ := h
  intro v' hv w hw
  obtain rfl : v = v' := Option.mem_unique hc hv
  rcases List.mem_append.mp hb with hfront | hrest
  · exact (hbefore b hfront w hw).le
  · rcases List.mem_cons.mp hrest with rfl | hback
    · exact (Option.mem_unique hw hc).le
    · exact hafter b hback w hw

theorem mem (h : IsPreferred cs c) : c ∈ cs := by
  obtain ⟨before, after, v, rfl, -⟩ := h
  simp

theorem value_pos (h : IsPreferred cs c) : ∃ v ∈ c.weight.value?, 0 < v := by
  obtain ⟨before, after, v, -, hc, hpos, -⟩ := h
  exact ⟨v, hc, hpos⟩

theorem keep (h : IsPreferred cs c)
    (hnext : ∀ v ∈ c.weight.value?, ∀ w ∈ next.weight.value?, w ≤ v) :
    IsPreferred (cs ++ [next]) c := by
  obtain ⟨before, after, v, rfl, hc, hpos, hbefore, hafter⟩ := h
  refine ⟨before, after ++ [next], v, by simp, hc, hpos, hbefore, ?_⟩
  intro a ha w hw
  rcases List.mem_append.mp ha with hold | hnew
  · exact hafter a hold w hw
  · rw [List.mem_singleton.mp hnew] at hw
    exact hnext v hc w hw

theorem replace {w : WithBot (WithTop ℚ)} (hnext : next.weight.value? = some w) (hpos : 0 < w)
    (hless : ∀ b ∈ cs, ∀ v ∈ b.weight.value?, v < w) : IsPreferred (cs ++ [next]) next :=
  ⟨cs, [], w, rfl, hnext, hpos, hless, by simp⟩

end IsPreferred

namespace NumberLeads

theorem append_of_pos (h : NumberLeads cs) (hpos : ∃ b ∈ cs, ∃ v ∈ b.weight.value?, 0 < v) :
    NumberLeads (cs ++ [next]) := by
  intro before c after hcs hnan
  rcases List.eq_nil_or_concat after with rfl | ⟨front, last, rfl⟩
  · obtain ⟨rfl, -⟩ := List.append_inj' hcs rfl
    exact hpos
  · rw [List.concat_eq_append, ← List.cons_append, ← List.append_assoc] at hcs
    obtain ⟨hfront, -⟩ := List.append_inj' hcs rfl
    exact h before c front hfront hnan

theorem cons_of_pos {c : Choice} (h : ∃ v ∈ c.weight.value?, 0 < v) : NumberLeads (c :: cs) := by
  intro before d after hcs hnan
  cases before with
  | nil =>
      obtain ⟨v, hv, -⟩ := h
      rw [(List.cons.inj hcs).left, hnan] at hv
      cases hv
  | cons b before =>
      rw [(List.cons.inj hcs).left] at h
      exact ⟨b, List.mem_cons_self, h⟩

theorem of_numbers (h : ∀ c ∈ cs, ∃ w, w ∈ c.weight.value?) : NumberLeads cs := by
  rintro before c after rfl hnan
  obtain ⟨w, hw⟩ := h c (by simp)
  rw [hnan] at hw
  cases hw

end NumberLeads

inductive Standing (cs : List Choice) : Option Choice → Prop
  | nothing (h : ∀ c ∈ cs, ∃ w ∈ c.weight.value?, w ≤ 0) : Standing cs none
  | number {c : Choice} (hleads : NumberLeads cs) (h : IsPreferred cs c) : Standing cs (some c)
  | notNumber {c : Choice} (before after : List Choice) (hcs : cs = before ++ c :: after)
      (hnan : c.weight = .nan) (h : ∀ b ∈ before, ∃ w ∈ b.weight.value?, w ≤ 0) :
      Standing cs (some c)

namespace Standing

variable {best : Option Choice}

theorem append_of_le_zero (h : Standing cs best) (hle : ∃ w ∈ next.weight.value?, w ≤ 0) :
    Standing (cs ++ [next]) best := by
  cases h with
  | nothing h =>
      refine .nothing fun c hc => ?_
      rcases List.mem_append.mp hc with hold | hnew
      · exact h c hold
      · rw [List.mem_singleton.mp hnew]
        exact hle
  | number hleads h =>
      refine .number (hleads.append_of_pos ⟨_, h.mem, h.value_pos⟩) (h.keep ?_)
      intro v hv w hw
      obtain ⟨v', hv', hpos⟩ := h.value_pos
      obtain ⟨w', hw', hnot⟩ := hle
      obtain rfl := Option.mem_unique hv hv'
      obtain rfl := Option.mem_unique hw hw'
      exact hnot.trans hpos.le
  | notNumber before after hcs hnan h =>
      refine .notNumber before (after ++ [next]) ?_ hnan h
      rw [hcs, List.append_assoc, List.cons_append]

theorem append_first (h : Standing cs none) (hnot : ¬∃ w ∈ next.weight.value?, w ≤ 0) :
    Standing (cs ++ [next]) (some next) := by
  cases h with
  | nothing h =>
      cases hvalue : next.weight.value? with
      | none => exact .notNumber cs [] rfl (Floating.value?_eq_none.mp hvalue) h
      | some w =>
          have hpos : 0 < w := not_le.mp fun hle => hnot ⟨w, hvalue, hle⟩
          refine .number (.of_numbers fun c hc => ?_) (.replace hvalue hpos ?_)
          · rcases List.mem_append.mp hc with hold | hnew
            · exact (h c hold).imp fun _ => And.left
            · rw [List.mem_singleton.mp hnew]
              exact ⟨w, hvalue⟩
          · intro b hb v hv
            obtain ⟨v', hv', hle⟩ := h b hb
            obtain rfl := Option.mem_unique hv hv'
            exact hle.trans_lt hpos

theorem append_next {b : Choice} (h : Standing cs (some b)) :
    Standing (cs ++ [next]) (if b.weight.lt next.weight then some next else some b) := by
  cases h with
  | number hleads h =>
      have hleads' : NumberLeads (cs ++ [next]) := hleads.append_of_pos ⟨b, h.mem, h.value_pos⟩
      obtain ⟨v, hv, hpos⟩ := h.value_pos
      split
      · rename_i hlt
        obtain ⟨v', hv', w, hw, hless⟩ := (Floating.lt_iff _ _).mp hlt
        obtain rfl := Option.mem_unique hv hv'
        refine .number hleads' (.replace hw (hpos.trans hless) ?_)
        exact fun c hc u hu => (h.value_le hc v hv u hu).trans_lt hless
      · rename_i hnot
        refine .number hleads' (h.keep fun v' hv' w hw => not_lt.mp fun hless => hnot ?_)
        exact (Floating.lt_iff _ _).mpr ⟨v', hv', w, hw, hless⟩
  | notNumber before after hcs hnan h =>
      rw [if_neg (by rw [Floating.lt_iff, hnan]; simp [Floating.value?])]
      refine .notNumber before (after ++ [next]) ?_ hnan h
      rw [hcs, List.append_assoc, List.cons_append]

theorem step (h : Standing cs best) (next : Choice) :
    Standing (cs ++ [next]) (better best next) := by
  unfold better
  split
  · rename_i hle
    exact h.append_of_le_zero ((le_zero_iff _).mp hle)
  · rename_i hnot
    rw [le_zero_iff] at hnot
    cases best with
    | none => exact h.append_first hnot
    | some b => exact h.append_next

theorem run (cs : List Choice) : Standing cs (cs.foldl better none) := by
  induction cs using List.reverseRecOn with
  | nil => exact .nothing (by simp)
  | append_singleton cs next ih =>
      rw [List.foldl_append]
      exact ih.step next

/-- What is preferred is right unless a weight that is no number leads. -/
theorem isBest_iff (h : Standing cs best) : IsBest cs best ↔ NumberLeads cs := by
  cases h with
  | nothing h =>
      refine iff_of_true ?_ (.of_numbers fun c hc => (h c hc).imp fun _ => And.left)
      intro c hc w hw
      obtain ⟨w', hw', hle⟩ := h c hc
      obtain rfl := Option.mem_unique hw hw'
      exact hle
  | number hleads h => exact iff_of_true h hleads
  | notNumber before after hcs hnan h =>
      apply iff_of_false
      · intro hbest
        obtain ⟨v, hv, -⟩ := IsPreferred.value_pos hbest
        rw [hnan] at hv
        cases hv
      · intro hleads
        obtain ⟨b, hb, hpos⟩ := hleads before _ after hcs hnan
        exact not_le_zero hpos (h b hb)

theorem eq_none_iff (h : Standing cs best) :
    best = none ↔ ∀ c ∈ cs, ∃ w ∈ c.weight.value?, w ≤ 0 := by
  cases h with
  | nothing h => exact iff_of_true rfl h
  | number hleads h =>
      exact iff_of_false (by simp) fun hall => not_le_zero h.value_pos (hall _ h.mem)
  | @notNumber c before after hcs hnan _ =>
      refine iff_of_false (by simp) fun hall => ?_
      obtain ⟨w, hw, -⟩ := hall c (by simp [hcs])
      rw [hnan] at hw
      cases hw

end Standing

/-!
# The order of languages
-/

def HasDistinctWeights (cs : List Choice) : Prop :=
  cs.Pairwise fun b c => ∀ v ∈ b.weight.value?, v ∉ c.weight.value?

theorem HasDistinctWeights.eq_of_value {b c : Choice} (h : HasDistinctWeights cs) (hb : b ∈ cs)
    (hc : c ∈ cs) {v : WithBot (WithTop ℚ)} (hbv : v ∈ b.weight.value?)
    (hcv : v ∈ c.weight.value?) : b = c := by
  have hsymm : Std.Symm fun b c : Choice => ∀ v ∈ b.weight.value?, v ∉ c.weight.value? :=
    ⟨fun b c hbc v hc hb => hbc v hb hc⟩
  by_contra hne
  exact List.Pairwise.forall h hb hc hne v hbv hcv

theorem IsBest.eq_of_perm {cs' : List Choice} {best best' : Option Choice} (h : IsBest cs best)
    (h' : IsBest cs' best') (hperm : cs.Perm cs') (hdistinct : HasDistinctWeights cs) :
    best = best' := by
  cases best with
  | none =>
      cases best' with
      | none => rfl
      | some c' =>
          obtain ⟨v, hv, hpos⟩ := IsPreferred.value_pos h'
          exact absurd (h c' (hperm.mem_iff.mpr (IsPreferred.mem h')) v hv) (not_le.mpr hpos)
  | some c =>
      obtain ⟨v, hv, hpos⟩ := IsPreferred.value_pos h
      have hc : c ∈ cs := IsPreferred.mem h
      cases best' with
      | none => exact absurd (h' c (hperm.mem_iff.mp hc) v hv) (not_le.mpr hpos)
      | some c' =>
          obtain ⟨v', hv', -⟩ := IsPreferred.value_pos h'
          have hc' : c' ∈ cs := hperm.mem_iff.mpr (IsPreferred.mem h')
          have hle : v ≤ v' := IsPreferred.value_le h' (hperm.mem_iff.mp hc) v' hv' v hv
          have hge : v' ≤ v := IsPreferred.value_le h hc' v hv v' hv'
          obtain rfl := hle.antisymm hge
          rw [hdistinct.eq_of_value hc hc' hv hv']

/-!
# The language of a header
-/

theorem value?_one : (Floating.one .binary32).value? = some 1 := by
  have hone : Floating.one .binary32 = .finite false 8388608 (-23) := by decide
  rw [hone]
  norm_num [Floating.value?, Floating.rational]

/-- No language is preferred exactly if all weights are numbers and none is greater than zero.
Else it is the tag of a choice, not an empty one, and it is the first one of the greatest weight
exactly if no weight that is no number leads. Then the same entries in another order, where none
leads either, give the same language if no two weights are the same number. -/
theorem greatest_preferred_iff (value : String) :
    ∃ best, preferred? value = best.map (fun c => String.ofList c.tag) ∧
      (best = none ↔ ∀ c ∈ choices value.toList, ∃ w ∈ c.weight.value?, w ≤ 0) ∧
      (∀ c, best = some c → c ∈ choices value.toList ∧ c.tag ≠ [] ∧
        (IsPreferred (choices value.toList) c ↔ NumberLeads (choices value.toList))) ∧
      ∀ value', (Text.splitOn ',' value.toList).Perm (Text.splitOn ',' value'.toList) →
        HasDistinctWeights (choices value.toList) → NumberLeads (choices value.toList) →
        NumberLeads (choices value'.toList) → preferred? value' = preferred? value := by
  have hstanding := Standing.run (choices value.toList)
  refine ⟨_, rfl, hstanding.eq_none_iff, ?some, ?order⟩
  case some =>
    intro c hc
    have hmem : c ∈ choices value.toList := (mem_of_foldl_better hc).resolve_right (by simp)
    obtain ⟨entry, -, hchoice⟩ := List.mem_filterMap.mp hmem
    have hiff := hstanding.isBest_iff
    rw [hc] at hiff
    exact ⟨hmem, (tag_of_choice? hchoice).left, hiff⟩
  case order =>
    intro value' hentries hdistinct hleads hleads'
    have hperm : (choices value.toList).Perm (choices value'.toList) := hentries.filterMap choice?
    have hbest := hstanding.isBest_iff.mpr hleads
    have hbest' := (Standing.run (choices value'.toList)).isBest_iff.mpr hleads'
    rw [preferred?, preferred?, hbest.eq_of_perm hbest' hperm hdistinct]

/-- A weight that is no number does no harm behind one that is greater than zero. -/
theorem greatest_preferred_iff_of_three :
    (Text.splitOn ',' "it,fr;q=nan,de;q=inf".toList).Perm
        (Text.splitOn ',' "de;q=inf,fr;q=nan,it".toList) ∧
      preferred? "de;q=inf,fr;q=nan,it" = preferred? "it,fr;q=nan,de;q=inf" ∧
      preferred? "it,fr;q=nan,de;q=inf" = some "de" := by
  have hchoices : choices "it,fr;q=nan,de;q=inf".toList =
      [⟨['i', 't'], .one .binary32⟩, ⟨['f', 'r'], .nan⟩, ⟨['d', 'e'], .infinite false⟩] := by
    decide
  have hchoices' : choices "de;q=inf,fr;q=nan,it".toList =
      [⟨['d', 'e'], .infinite false⟩, ⟨['f', 'r'], .nan⟩, ⟨['i', 't'], .one .binary32⟩] := by
    decide
  have hperm : (Text.splitOn ',' "it,fr;q=nan,de;q=inf".toList).Perm
      (Text.splitOn ',' "de;q=inf,fr;q=nan,it".toList) := by decide
  have hone := value?_one
  have hinf : (Floating.infinite false).value? = some ⊤ := rfl
  have hnan : Floating.nan.value? = none := rfl
  have hapart : (⊤ : WithBot (WithTop ℚ)) ≠ 1 := (Floating.coe_lt_top 1).ne'
  obtain ⟨_, -, -, -, horder⟩ := greatest_preferred_iff "it,fr;q=nan,de;q=inf"
  refine ⟨hperm, horder _ hperm ?_ ?_ ?_, by decide⟩
  · rw [hchoices]
    simp [HasDistinctWeights, hone, hinf, hnan, hapart]
  · rw [hchoices]
    exact .cons_of_pos ⟨_, hone, zero_lt_one⟩
  · rw [hchoices']
    exact .cons_of_pos ⟨_, hinf, Floating.coe_lt_top 0⟩

/-- A weight that is no number is preferred to one that it stands in front of, and only then. -/
theorem nan_preferred_to_one :
    choices "de;q=nan, fr".toList =
        [⟨['d', 'e'], .nan⟩, ⟨['f', 'r'], .one .binary32⟩] ∧
      preferred? "de;q=nan, fr" = some "de" ∧ preferred? "fr, de;q=nan" = some "fr" ∧
      Floating.nan.value? = none ∧ ∃ v ∈ (Floating.one .binary32).value?, 0 < v :=
  ⟨by decide, by decide, by decide, rfl, _, value?_one, zero_lt_one⟩

end Language
end Http
end Parley
