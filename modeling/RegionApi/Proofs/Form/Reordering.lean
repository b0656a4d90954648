import RegionApi.Proofs.Client.FirstRequest
import RegionApi.Proofs.Form.Table

/-!
# In which order pairs are collected

Two lists of pairs make the same form, the same table and the same written form exactly if each name
has the same values in both, and that is to say that one list is the other in another order, pairs
of the same name standing as they stood (`order_matters_within_names`). So between different names
the order does not matter, to no call that a form is given to either.
-/

namespace RegionApi.Form

variable {xs ys : List (String × String)}

/-- Whether each name has the same values in two lists, in the same order. -/
def HaveSameValues (xs ys : List (String × String)) : Prop :=
  ∀ name, valuesIn xs name = valuesIn ys name

theorem ofList_eq_iff : ofList xs = ofList ys ↔ HaveSameValues xs ys := by
  constructor
  · intro same name
    rw [← values_ofList, same, values_ofList]
  · intro same
    refine eq_of_values_eq fun name => ?_
    rw [values_ofList, values_ofList, same]

/-! ## Tables -/

namespace Rows

/-- Of two tables with the same rows for all names the first name of the one is not behind that of
the other. -/
theorem fst_le_of_find?_eq {r s : String × List String} {rows others : Rows}
    (ascending : (s :: others).Pairwise fun r s => r.1 < s.1)
    (same : ∀ name, find? name (r :: rows) = find? name (s :: others)) : s.1 ≤ r.1 := by
  refine String.not_lt.mp fun less => ?_
  have none : find? r.1 (s :: others) = none := by
    refine find?_eq_none (List.forall_mem_cons.mpr ⟨less, fun row hrow => ?_⟩)
    exact String.lt_trans less (List.rel_of_pairwise_cons ascending hrow)
  rw [← same, find?, if_pos rfl] at none
  cases none

/-- A table is told by what is found in it. -/
theorem eq_of_find?_eq {rows others : Rows} (first : rows.Pairwise fun r s => r.1 < s.1)
    (second : others.Pairwise fun r s => r.1 < s.1)
    (same : ∀ name, find? name rows = find? name others) : rows = others := by
  induction rows generalizing others with
  | nil =>
      cases others with
      | nil => rfl
      | cons s others =>
          have none := same s.1
          rw [find?, find?, if_pos rfl] at none
          cases none
  | cons r rows ih =>
      cases others with
      | nil =>
          have none := same r.1
          rw [find?, find?, if_pos rfl] at none
          cases none
      | cons s others =>
          have name : r.1 = s.1 :=
            String.le_antisymm (fst_le_of_find?_eq first fun name => (same name).symm)
              (fst_le_of_find?_eq second same)
          have values : r.2 = s.2 := by
            have rows := same r.1
            rw [find?, find?, if_pos rfl, if_pos name.symm] at rows
            exact Option.some.inj rows
          have row : r = s := Prod.ext name values
          subst row
          have rest : rows = others := by
            refine ih first.of_cons second.of_cons fun other => ?_
            by_cases apart : r.1 = other
            · rw [find?_eq_none fun row hrow => apart ▸ List.rel_of_pairwise_cons first hrow,
                find?_eq_none fun row hrow => apart ▸ List.rel_of_pairwise_cons second hrow]
            · have both := same other
              rwa [find?, find?, if_neg apart, if_neg apart] at both
          rw [rest]

end Rows

theorem tabled_eq_iff : tabled xs [] = tabled ys [] ↔ HaveSameValues xs ys := by
  constructor
  · intro same name
    have found : history xs [] name = history ys [] name := by
      rw [← find?_tabled, same, find?_tabled]
    exact found
  · intro same
    refine Rows.eq_of_find?_eq (isTable_tabled xs []).ascending (isTable_tabled ys []).ascending ?_
    intro name
    have told : history xs [] name = history ys [] name := same name
    rw [(isTable_tabled xs []).find?_eq, (isTable_tabled ys []).find?_eq, find?_tabled,
      find?_tabled, told]

/-! ## Reordering -/

/-- Whether pairs are others in another order, in which pairs of the same name stand as they stood:
each pair is taken along with its place in the other list. -/
def Reorders (ys xs : List (String × String)) : Prop :=
  ∃ placed : List ((String × String) × Nat), placed.Perm xs.zipIdx ∧ placed.map Prod.fst = ys ∧
    placed.Pairwise fun p q => p.1.1 = q.1.1 → p.2 < q.2

/-- The values of a name are those of its pairs, whatever place they are taken along with. -/
theorem valuesIn_map_fst (placed : List ((String × String) × Nat)) (name : String) :
    valuesIn (placed.map Prod.fst) name =
      (placed.filter (·.1.1 = name)).map (·.1.2) := by
  induction placed with
  | nil => rfl
  | cons p placed ih =>
      rw [List.map_cons, valuesIn_cons, ih]
      by_cases same : p.1.1 = name <;> simp [same]

/-- The pairs of one name are the same before and after, place by place. -/
theorem Reorders.haveSameValues (h : Reorders ys xs) : HaveSameValues ys xs := by
  obtain ⟨placed, perm, rfl, stands⟩ := h
  intro name
  have places : xs.zipIdx.Pairwise fun p q => p.2 < q.2 := by
    rw [← List.pairwise_map (f := Prod.snd) (R := fun i j => i < j), List.zipIdx_map_snd]
    exact List.pairwise_lt_range'
  have ascending : (placed.filter (·.1.1 = name)).Pairwise fun p q => p.2 < q.2 := by
    refine (stands.filter _).imp_of_mem fun {p q} hp hq before => before ?_
    have first : p.1.1 = name := by simpa using List.of_mem_filter hp
    have second : q.1.1 = name := by simpa using List.of_mem_filter hq
    exact first.trans second.symm
  have same : placed.filter (·.1.1 = name) = xs.zipIdx.filter (·.1.1 = name) :=
    (perm.filter _).eq_of_pairwise (fun _ _ _ _ less more => absurd more (Nat.lt_asymm less))
      ascending (places.filter _)
  rw [valuesIn_map_fst, same, ← valuesIn_map_fst, List.zipIdx_map_fst]

/-- A pair that comes first among those of its name can be put in front. -/
theorem valuesIn_append_cons {before after : List (String × String)} {p : String × String}
    (free : ∀ q ∈ before, q.1 ≠ p.1) (name : String) :
    valuesIn (before ++ p :: after) name = valuesIn (p :: (before ++ after)) name := by
  rw [Rows.valuesIn_append, valuesIn_cons, valuesIn_cons, Rows.valuesIn_append]
  by_cases same : p.1 = name
  · have none : valuesIn before name = [] := by
      by_contra some
      obtain ⟨q, hq, found⟩ := exists_of_valuesIn_ne_nil some
      exact free q hq (found.trans same.symm)
    rw [none]
    simp
  · simp [same]

/-- The first pair of the one list is found in the other before all pairs of its name. -/
theorem exists_append_of_haveSameValues {p : String × String}
    (same : HaveSameValues ys (p :: xs)) :
    ∃ before after, ys = before ++ p :: after ∧ (∀ q ∈ before, q.1 ≠ p.1) ∧
      HaveSameValues (before ++ after) xs := by
  have values := same p.1
  rw [valuesIn_cons, if_pos rfl, List.singleton_append] at values
  obtain ⟨before, q, after, rfl, free, told, -⟩ := List.filterMap_eq_cons_iff.mp values
  have name : q.1 = p.1 := by
    by_contra ne
    rw [if_neg ne] at told
    cases told
  rw [if_pos name, Option.some_inj] at told
  obtain rfl : q = p := Prod.ext name told
  have free : ∀ r ∈ before, r.1 ≠ q.1 := by
    intro r hr found
    have none := free r hr
    rw [if_pos found] at none
    cases none
  refine ⟨before, after, rfl, free, fun other => ?_⟩
  have both := same other
  rw [valuesIn_append_cons free, valuesIn_cons, valuesIn_cons] at both
  exact List.append_cancel_left both

/-- Lists in which each name has the same values differ in nothing but the order of different
names. -/
theorem HaveSameValues.reorders (same : HaveSameValues ys xs) : Reorders ys xs := by
  induction xs generalizing ys with
  | nil =>
      cases ys with
      | nil => exact ⟨[], .nil, rfl, .nil⟩
      | cons q ys =>
          have none := same q.1
          rw [valuesIn_cons, if_pos rfl] at none
          cases none
  | cons p xs ih =>
      obtain ⟨before, after, rfl, free, rest⟩ := exists_append_of_haveSameValues same
      obtain ⟨placed, perm, text, stands⟩ := ih rest
      obtain ⟨front, back, rfl, rfl, rfl⟩ := List.map_eq_append_iff.mp text
      let next : (String × String) × Nat → (String × String) × Nat := Prod.map id (· + 1)
      refine ⟨front.map next ++ (p, 0) :: back.map next, ?_, ?_, ?_⟩
      · rw [List.zipIdx_cons']
        refine List.perm_middle.trans (List.Perm.cons _ ?_)
        rw [← List.map_append]
        exact perm.map next
      · simp [next, Function.comp_def]
      · obtain ⟨first, second, across⟩ := List.pairwise_append.mp stands
        have kept {places : List ((String × String) × Nat)}
            (stands : places.Pairwise fun p q => p.1.1 = q.1.1 → p.2 < q.2) :
            (places.map next).Pairwise fun p q => p.1.1 = q.1.1 → p.2 < q.2 :=
          List.pairwise_map.mpr (stands.imp fun before found =>
            Nat.succ_lt_succ (before found))
        refine List.pairwise_append.mpr ⟨kept first, List.pairwise_cons.mpr ⟨?_, kept second⟩, ?_⟩
        · intro q hq _
          obtain ⟨q, -, rfl⟩ := List.mem_map.mp hq
          exact Nat.succ_pos _
        · intro q hq r hr found
          obtain ⟨a, ha, rfl⟩ := List.mem_map.mp hq
          rcases List.mem_cons.mp hr with rfl | hr
          · exact absurd found (free a.1 (List.mem_map_of_mem ha))
          · obtain ⟨b, hb, rfl⟩ := List.mem_map.mp hr
            exact Nat.succ_lt_succ (across a ha b hb found)

theorem reorders_iff : Reorders ys xs ↔ HaveSameValues ys xs :=
  ⟨Reorders.haveSameValues, HaveSameValues.reorders⟩

/-- Two lists of pairs make the same form, the same table and the same written form exactly if each
name has the same values in both, and exactly then one is the other in an order in which pairs of
the same name stand as they stood. So with either of them a client calls the same. -/
theorem order_matters_within_names [HostNames] (xs ys : List (String × String)) :
    (ofList xs = ofList ys ↔ HaveSameValues xs ys) ∧
    (tabled xs [] = tabled ys [] ↔ HaveSameValues xs ys) ∧
    ((ofList xs).encode = (ofList ys).encode ↔ HaveSameValues xs ys) ∧
    (Reorders xs ys ↔ HaveSameValues xs ys) ∧
    (Reorders xs ys → ∀ (c : Client) (net : Http.Network) (resource operation : String),
      c.get net resource operation (ofList xs) = c.get net resource operation (ofList ys) ∧
      c.post net resource operation (ofList xs) = c.post net resource operation (ofList ys) ∧
      c.put net resource (ofList xs) = c.put net resource (ofList ys)) := by
  refine ⟨ofList_eq_iff, tabled_eq_iff, encode_injective.eq_iff.trans ofList_eq_iff, reorders_iff,
    fun reorders c net resource operation => ?_⟩
  rw [ofList_eq_iff.mpr reorders.haveSameValues]
  exact ⟨rfl, rfl, rfl⟩

/-- A pair of another name moves to the front, and separators in names and values make no difference
to that. -/
theorem order_matters_within_names_mixed :
    ∃ xs ys, xs = [("b", "1"), ("a&b", "="), ("b", "3")] ∧
      ys = [("a&b", "="), ("b", "1"), ("b", "3")] ∧ Reorders xs ys ∧ ofList xs = ofList ys ∧
      (ofList xs).encode = "a%26b=%3D&b=1&b=3" ∧ (ofList ys).encode = (ofList xs).encode ∧
      ∀ net, Client.loopback.post net "m/" "" (ofList xs) =
        Client.loopback.post net "m/" "" (ofList ys) := by
  have reorders : Reorders [("b", "1"), ("a&b", "="), ("b", "3")]
      [("a&b", "="), ("b", "1"), ("b", "3")] :=
    ⟨[(("b", "1"), 1), (("a&b", "="), 0), (("b", "3"), 2)], by decide, rfl, by decide⟩
  obtain ⟨forms, -, texts, order, calls⟩ := order_matters_within_names
    [("b", "1"), ("a&b", "="), ("b", "3")] [("a&b", "="), ("b", "1"), ("b", "3")]
  have same := order.mp reorders
  exact ⟨_, _, rfl, rfl, reorders, forms.mpr same, by decide +kernel, (texts.mpr same).symm,
    fun net => (calls reorders Client.loopback net "m/" "").2.1⟩

end RegionApi.Form
