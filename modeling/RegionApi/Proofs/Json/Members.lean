import RegionApi.Json.Basic

/-!
# Objects by their members

What an object holds is found by name. Members in order are told by what is found among them
(`Ascending.eq_of_find?_eq`), so an object is.
-/

namespace RegionApi.Json

theorem find?_append (name : String) (ms ns : List (String × Json)) :
    find? name (ms ++ ns) = (find? name ms).or (find? name ns) := by
  induction ms with
  | nil => rfl
  | cons m ms ih =>
      rw [List.cons_append, find?, find?, ih]
      split <;> rfl

theorem find?_eq_none_of_lt {name : String} {ms : List (String × Json)}
    (h : ∀ m ∈ ms, name < m.1) : find? name ms = none := by
  induction ms with
  | nil => rfl
  | cons m ms ih =>
      have other : m.1 ≠ name := fun same =>
        String.lt_irrefl name (same ▸ h m List.mem_cons_self)
      rw [find?, if_neg other]
      exact ih fun n hn => h n (List.mem_cons_of_mem m hn)

/-- In members in order every name stands once, so it does not matter from which end they are
searched. -/
theorem Ascending.find?_reverse {ms : List (String × Json)} (h : Ascending ms) (name : String) :
    find? name ms = find? name ms.reverse := by
  induction ms with
  | nil => rfl
  | cons m ms ih =>
      obtain ⟨less, rest⟩ := List.pairwise_cons.mp h
      rw [List.reverse_cons, find?_append, ← ih rest, find?, find?, find?]
      split
      · rename_i same
        rw [find?_eq_none_of_lt fun n hn => same ▸ less n hn, Option.none_or]
      · exact Option.or_none.symm

/-- The least name of some members is found in no others that have the same. -/
theorem Ascending.le_of_find?_eq {m n : String × Json} {ms ns : List (String × Json)}
    (hn : Ascending (n :: ns)) (h : ∀ name, find? name (m :: ms) = find? name (n :: ns)) :
    n.1 ≤ m.1 := by
  refine String.not_lt.mp fun less => ?_
  have absent : find? m.1 (n :: ns) = none := by
    refine find?_eq_none_of_lt fun k hk => ?_
    rcases List.mem_cons.mp hk with rfl | hk
    · exact less
    · exact String.lt_trans less ((List.pairwise_cons.mp hn).1 k hk)
  have found := h m.1
  rw [absent, find?, if_pos rfl] at found
  cases found

/-- Members in order are told by what is found among them. -/
theorem Ascending.eq_of_find?_eq {ms ns : List (String × Json)} (hm : Ascending ms)
    (hn : Ascending ns) (h : ∀ name, find? name ms = find? name ns) : ms = ns := by
  induction ms generalizing ns with
  | nil =>
      cases ns with
      | nil => rfl
      | cons n ns =>
          have found := h n.1
          rw [find?, find?, if_pos rfl] at found
          cases found
  | cons m ms ih =>
      cases ns with
      | nil =>
          have found := h m.1
          rw [find?, find?, if_pos rfl] at found
          cases found
      | cons n ns =>
          have name : m.1 = n.1 := String.le_antisymm
            (hm.le_of_find?_eq fun name => (h name).symm) (hn.le_of_find?_eq h)
          obtain ⟨lessM, restM⟩ := List.pairwise_cons.mp hm
          obtain ⟨lessN, restN⟩ := List.pairwise_cons.mp hn
          have value : m.2 = n.2 := by
            have found := h m.1
            rw [find?, find?, if_pos rfl, if_pos name.symm] at found
            exact Option.some.inj found
          have rest : ms = ns := by
            refine ih restM restN fun other => ?_
            by_cases same : m.1 = other
            · rw [find?_eq_none_of_lt fun k hk => same ▸ lessM k hk,
                find?_eq_none_of_lt fun k hk => same ▸ name ▸ lessN k hk]
            · have found := h other
              rwa [find?, find?, if_neg same, if_neg (name ▸ same)] at found
          rw [Prod.ext name value, rest]

end RegionApi.Json
