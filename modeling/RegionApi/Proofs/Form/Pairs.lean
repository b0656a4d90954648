import RegionApi.Form

/-!
# Where a pair goes

A form is a list of pairs in ascending order of name. A value set for a new name stands between the
smaller and the greater names, and everything else stays where it is.
-/

namespace RegionApi.Form

/-- The values of a name among pairs. -/
def valuesIn (pairs : List (String × String)) (name : String) : List String :=
  pairs.filterMap fun p => if p.1 = name then some p.2 else none

theorem valuesIn_pairs (f : Form) (name : String) : valuesIn f.pairs name = f.values name := rfl

/-- A pair is put between the names that are not greater and those that are. -/
theorem exists_place_eq {ps : List (String × String)} (sorted : ps.Pairwise fun p q => p.1 ≤ q.1)
    (name value : String) :
    ∃ before after, ps = before ++ after ∧ (∀ p ∈ before, p.1 ≤ name) ∧
      (∀ p ∈ after, name < p.1) ∧ place name value ps = before ++ (name, value) :: after := by
  induction ps with
  | nil => exact ⟨[], [], rfl, by simp, by simp, rfl⟩
  | cons p ps ih =>
      obtain ⟨hp, hps⟩ := List.pairwise_cons.mp sorted
      by_cases le : p.1 ≤ name
      · obtain ⟨before, after, eq, smaller, greater, placed⟩ := ih hps
        refine ⟨p :: before, after, by rw [eq, List.cons_append], ?_, greater, ?_⟩
        · intro q hq
          rcases List.mem_cons.mp hq with rfl | hq
          · exact le
          · exact smaller q hq
        · rw [place, if_pos le, placed, List.cons_append]
      · refine ⟨[], p :: ps, rfl, by simp, ?_, by rw [place, if_neg le, List.nil_append]⟩
        intro q hq
        refine String.not_le.mp fun hle => le ?_
        rcases List.mem_cons.mp hq with rfl | hq
        · exact hle
        · exact String.le_trans (hp q hq) hle

theorem contains_eq_false_iff {f : Form} {name : String} :
    f.contains name = false ↔ ∀ p ∈ f.pairs, p.1 ≠ name := by
  simp [contains]

/-- Setting leaves a name with one value and all other names alone. -/
theorem values_set (f : Form) (name value other : String) :
    (f.set name value).values other = if name = other then [value] else f.values other := by
  rw [set, values_add, values_erase]
  by_cases same : name = other <;> simp [same]

/-- A value set for a name that a form has not got stands between the smaller and the greater
names. -/
theorem exists_pairs_set_eq {f : Form} {name : String} (free : f.contains name = false)
    (value : String) :
    ∃ before after, f.pairs = before ++ after ∧ (∀ p ∈ before, p.1 < name) ∧
      (∀ p ∈ after, name < p.1) ∧ (f.set name value).pairs = before ++ (name, value) :: after := by
  have ne := contains_eq_false_iff.mp free
  have erased : (f.erase name).pairs = f.pairs := by
    apply List.filter_eq_self.mpr
    intro p hp
    exact decide_eq_true (ne p hp)
  obtain ⟨before, after, eq, smaller, greater, placed⟩ := exists_place_eq f.sorted name value
  refine ⟨before, after, eq, ?_, greater, by rw [set, pairs_add, erased, placed]⟩
  intro p hp
  have mem : p ∈ f.pairs := by
    rw [eq]
    exact List.mem_append_left _ hp
  refine String.not_le.mp fun hle => ne p mem ?_
  exact String.le_antisymm (smaller p hp) hle

end RegionApi.Form
