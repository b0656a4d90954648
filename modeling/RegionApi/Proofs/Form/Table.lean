import RegionApi.Proofs.Form.Operations

/-!
# Forms as tables

A form can be kept as a table in which each name has a row with all its values. Whatever is done to
it, a table has no row without values, and its rows written out are the pairs of the form to which
the same is done (`pairs_tabled`). So whether a name is there, what its values are and whether there
is anything at all is told by the operations on that name alone (`keeps_history`).
-/

namespace RegionApi.Form

/-! ## Equal values -/

theorem valuesIn_cons (p : String × String) (pairs : List (String × String)) (name : String) :
    valuesIn (p :: pairs) name = (if p.1 = name then [p.2] else []) ++ valuesIn pairs name := by
  by_cases same : p.1 = name <;> simp [valuesIn, same]

theorem exists_of_valuesIn_ne_nil {pairs : List (String × String)} {name : String}
    (some : valuesIn pairs name ≠ []) : ∃ p ∈ pairs, p.1 = name := by
  obtain ⟨value, hvalue⟩ := List.exists_mem_of_ne_nil _ some
  obtain ⟨p, hp, told⟩ := List.mem_filterMap.mp hvalue
  by_cases same : p.1 = name
  · exact ⟨p, hp, same⟩
  · rw [if_neg same] at told
    cases told

/-- Of two lists with the same values the first name of the one is not behind that of the other. -/
theorem fst_le_of_valuesIn_eq {p q : String × String} {ps qs : List (String × String)}
    (sorted : (q :: qs).Pairwise fun p q => p.1 ≤ q.1)
    (same : ∀ name, valuesIn (p :: ps) name = valuesIn (q :: qs) name) : q.1 ≤ p.1 := by
  have some : valuesIn (q :: qs) p.1 ≠ [] := by
    rw [← same, valuesIn_cons, if_pos rfl]
    exact List.cons_ne_nil _ _
  obtain ⟨r, hr, name⟩ := exists_of_valuesIn_ne_nil some
  rcases List.mem_cons.mp hr with rfl | hr
  · exact name ▸ String.le_refl _
  · exact name ▸ List.rel_of_pairwise_cons sorted hr

/-- Pairs in order are told by the values of each name. -/
theorem eq_of_valuesIn_eq {ps qs : List (String × String)}
    (first : ps.Pairwise fun p q => p.1 ≤ q.1) (second : qs.Pairwise fun p q => p.1 ≤ q.1)
    (same : ∀ name, valuesIn ps name = valuesIn qs name) : ps = qs := by
  induction ps generalizing qs with
  | nil =>
      cases qs with
      | nil => rfl
      | cons q qs =>
          have none := same q.1
          rw [valuesIn_cons, if_pos rfl] at none
          cases none
  | cons p ps ih =>
      cases qs with
      | nil =>
          have none := same p.1
          rw [valuesIn_cons, if_pos rfl] at none
          cases none
      | cons q qs =>
          have name : p.1 = q.1 :=
            String.le_antisymm (fst_le_of_valuesIn_eq first fun name => (same name).symm)
              (fst_le_of_valuesIn_eq second same)
          have value : p.2 = q.2 := by
            have heads := same p.1
            rw [valuesIn_cons, valuesIn_cons, if_pos rfl, if_pos name.symm] at heads
            exact (List.cons.inj heads).1
          have pair : p = q := Prod.ext name value
          subst pair
          have rest : ps = qs := by
            apply ih first.of_cons second.of_cons
            intro other
            have both := same other
            rw [valuesIn_cons, valuesIn_cons] at both
            exact List.append_cancel_left both
          rw [rest]

/-- Forms in which each name has the same values are the same. -/
theorem eq_of_values_eq {f g : Form} (same : ∀ name, f.values name = g.values name) : f = g :=
  Form.ext (eq_of_valuesIn_eq f.sorted g.sorted same)

/-! ## Tables -/

/-- Rows of a name and its values. -/
abbrev Rows := List (String × List String)

namespace Rows

/-- The values in the row of a name, if it has one. -/
def find? (name : String) : Rows → Option (List String)
  | [] => none
  | row :: rows => if row.1 = name then some row.2 else find? name rows

/-- The rows with something done to the values of a name. A name without a row has none so far, and
gets a row before the greater names. -/
def change (name : String) (f : List String → List String) : Rows → Rows
  | [] => [(name, f [])]
  | row :: rows =>
    if row.1 < name then row :: change name f rows
    else if row.1 = name then (name, f row.2) :: rows
    else (name, f []) :: row :: rows

/-- The rows without that of a name. -/
def remove (name : String) (rows : Rows) : Rows := rows.filter (·.1 ≠ name)

/-- Each value of the rows with its name. -/
def pairs (rows : Rows) : List (String × String) := rows.flatMap fun row => row.2.map (row.1, ·)

/-- Whether rows are those of a table: names ascend, each with one row, and no row is without
values. -/
structure IsTable (rows : Rows) : Prop where
  ascending : rows.Pairwise fun r s => r.1 < s.1
  filled : ∀ row ∈ rows, row.2 ≠ []

section Change

variable {name : String} {f : List String → List String} {rows : Rows}

theorem mem_change {row : String × List String} (h : row ∈ change name f rows) :
    (∃ values, row = (name, f values)) ∨ row ∈ rows := by
  induction rows with
  | nil => exact .inl ⟨[], List.mem_singleton.mp h⟩
  | cons r rows ih =>
      rw [change] at h
      split at h
      · rcases List.mem_cons.mp h with rfl | h
        · exact .inr List.mem_cons_self
        · exact (ih h).imp_right (List.mem_cons_of_mem _)
      · split at h
        · rcases List.mem_cons.mp h with rfl | h
          · exact .inl ⟨r.2, rfl⟩
          · exact .inr (List.mem_cons_of_mem _ h)
        · rcases List.mem_cons.mp h with rfl | h
          · exact .inl ⟨[], rfl⟩
          · exact .inr h

theorem ascending_change (h : rows.Pairwise fun r s => r.1 < s.1) :
    (change name f rows).Pairwise fun r s => r.1 < s.1 := by
  induction rows with
  | nil => exact List.pairwise_singleton _ _
  | cons r rows ih =>
      obtain ⟨before, rest⟩ := List.pairwise_cons.mp h
      rw [change]
      split
      · rename_i less
        refine List.pairwise_cons.mpr ⟨fun s hs => ?_, ih rest⟩
        rcases mem_change hs with ⟨values, rfl⟩ | hs
        · exact less
        · exact before s hs
      · split
        · rename_i same
          exact List.pairwise_cons.mpr ⟨fun s hs => same ▸ before s hs, rest⟩
        · rename_i notLess ne
          have less : name < r.1 :=
            String.not_le.mp fun le => ne (String.le_antisymm le (String.not_lt.mp notLess))
          refine List.pairwise_cons.mpr ⟨fun s hs => ?_, h⟩
          rcases List.mem_cons.mp hs with rfl | hs
          · exact less
          · exact String.lt_trans less (before s hs)

/-- A table stays one if something is left of the values that are changed. -/
theorem IsTable.change (h : IsTable rows) (some : ∀ values, f values ≠ []) :
    IsTable (change name f rows) := by
  refine ⟨ascending_change h.ascending, ?_⟩
  intro row hrow
  rcases mem_change hrow with ⟨values, rfl⟩ | hrow
  · exact some values
  · exact h.filled row hrow

theorem IsTable.remove (h : IsTable rows) (name : String) : IsTable (remove name rows) :=
  ⟨h.ascending.filter _, fun row hrow => h.filled row (List.mem_of_mem_filter hrow)⟩

/-- A name that is less than those of all rows has none. -/
theorem find?_eq_none (less : ∀ row ∈ rows, name < row.1) : find? name rows = none := by
  induction rows with
  | nil => rfl
  | cons r rows ih =>
      obtain ⟨first, others⟩ := List.forall_mem_cons.mp less
      have ne : r.1 ≠ name := fun same => String.lt_irrefl name (by rwa [same] at first)
      rw [find?, if_neg ne, ih others]

/-- A change is one to the row of its name. -/
theorem find?_change (h : rows.Pairwise fun r s => r.1 < s.1) (other : String) :
    find? other (change name f rows) =
      if name = other then some (f ((find? name rows).getD [])) else find? other rows := by
  induction rows with
  | nil => rfl
  | cons r rows ih =>
      obtain ⟨before, rest⟩ := List.pairwise_cons.mp h
      rw [change]
      split
      · rename_i less
        have ne : r.1 ≠ name := fun same => String.lt_irrefl name (by rwa [same] at less)
        by_cases first : r.1 = other
        · have apart : name ≠ other := fun same => ne (first.trans same.symm)
          simp only [find?, if_pos first, if_neg apart]
        · simp only [find?, if_neg first, if_neg ne, ih rest]
      · split
        · rename_i same
          by_cases apart : name = other
          · simp only [find?, if_pos same, if_pos apart, Option.getD_some]
          · have ne : r.1 ≠ other := fun e => apart (same.symm.trans e)
            simp only [find?, if_neg apart, if_neg ne]
        · rename_i notLess ne
          have less : name < r.1 :=
            String.not_le.mp fun le => ne (String.le_antisymm le (String.not_lt.mp notLess))
          have none : find? name (r :: rows) = none := by
            apply find?_eq_none
            intro s hs
            rcases List.mem_cons.mp hs with rfl | hs
            · exact less
            · exact String.lt_trans less (before s hs)
          rw [none]
          by_cases apart : name = other
          · simp only [find?, if_pos apart, Option.getD_none]
          · rw [find?, if_neg apart, if_neg apart]

end Change

theorem find?_remove (name other : String) (rows : Rows) :
    find? other (remove name rows) = if name = other then none else find? other rows := by
  induction rows with
  | nil => exact (ite_self _).symm
  | cons r rows ih =>
      rw [remove] at ih ⊢
      by_cases removed : r.1 = name
      · rw [List.filter_cons_of_neg (by simpa using removed), ih]
        by_cases apart : name = other
        · rw [if_pos apart, if_pos apart]
        · have ne : r.1 ≠ other := fun e => apart (removed.symm.trans e)
          rw [if_neg apart, if_neg apart, find?, if_neg ne]
      · rw [List.filter_cons_of_pos (by simpa using removed), find?, find?, ih]
        by_cases first : r.1 = other
        · have apart : name ≠ other := fun e => removed (first.trans e.symm)
          rw [if_pos first, if_neg apart, if_pos first]
        · rw [if_neg first, if_neg first]

/-! ### Rows written out -/

theorem valuesIn_map (name other : String) (values : List String) :
    valuesIn (values.map (name, ·)) other = if name = other then values else [] := by
  induction values with
  | nil => exact (ite_self _).symm
  | cons value values ih =>
      rw [List.map_cons, valuesIn_cons, ih]
      by_cases same : name = other
      · simp only [if_pos same, List.singleton_append]
      · simp only [if_neg same, List.append_nil]

theorem valuesIn_append (ps qs : List (String × String)) (name : String) :
    valuesIn (ps ++ qs) name = valuesIn ps name ++ valuesIn qs name := List.filterMap_append

/-- The values of a name are those in its row. -/
theorem IsTable.valuesIn_pairs {rows : Rows} (h : IsTable rows) (name : String) :
    valuesIn rows.pairs name = (find? name rows).getD [] := by
  induction rows with
  | nil => rfl
  | cons r rows ih =>
      obtain ⟨before, rest⟩ := List.pairwise_cons.mp h.ascending
      have tail : IsTable rows := ⟨rest, fun row hrow => h.filled row (List.mem_cons_of_mem _ hrow)⟩
      rw [pairs, List.flatMap_cons, valuesIn_append, valuesIn_map, ← pairs, ih tail, find?]
      by_cases same : r.1 = name
      · have none : find? name rows = none := find?_eq_none fun row hrow => same ▸ before row hrow
        rw [if_pos same, if_pos same, none]
        exact List.append_nil _
      · rw [if_neg same, if_neg same, List.nil_append]

/-- Rows in order are written out in order. -/
theorem sorted_pairs {rows : Rows} (h : rows.Pairwise fun r s => r.1 < s.1) :
    rows.pairs.Pairwise fun p q => p.1 ≤ q.1 := by
  induction rows with
  | nil => exact .nil
  | cons r rows ih =>
      obtain ⟨before, rest⟩ := List.pairwise_cons.mp h
      rw [pairs, List.flatMap_cons]
      refine List.pairwise_append.mpr ⟨?_, ih rest, ?_⟩
      · exact List.pairwise_map.mpr (List.pairwise_of_forall fun _ _ => String.le_refl _)
      · intro p hp q hq
        obtain ⟨value, -, rfl⟩ := List.mem_map.mp hp
        obtain ⟨s, hs, hq⟩ := List.mem_flatMap.mp hq
        obtain ⟨value', -, rfl⟩ := List.mem_map.mp hq
        exact String.not_lt.mp fun less => String.lt_irrefl _ (String.lt_trans less (before s hs))

end Rows

/-! ## Histories -/

namespace Operation

/-- The name an operation is about. -/
def name : Operation → String
  | add name _ | set name _ | addOption name _ | take name => name

/-- What an operation makes of the values of its name. -/
def perform (values : List String) : Operation → List String
  | add _ value => values ++ [value]
  | set _ value => [value]
  | addOption _ value => values ++ value.toList
  | take _ => []

/-- The rows after an operation. -/
def tabulate (rows : Rows) : Operation → Rows
  | add name value => rows.change name (· ++ [value])
  | set name value => rows.change name fun _ => [value]
  | addOption _ none => rows
  | addOption name (some value) => rows.change name (· ++ [value])
  | take name => rows.remove name

/-- Nothing happens to the values of another name. -/
theorem replay_eq (o : Operation) (name : String) (values : List String) :
    o.replay name values = if o.name = name then o.perform values else values := by
  cases o <;> rfl

theorem isTable_tabulate (o : Operation) {rows : Rows} (h : rows.IsTable) :
    (o.tabulate rows).IsTable := by
  cases o with
  | add name value => exact h.change fun values => by simp
  | set name value => exact h.change fun _ => List.cons_ne_nil _ _
  | addOption name value =>
      cases value with
      | none => exact h
      | some value => exact h.change fun values => by simp
  | take name => exact h.remove name

/-- An operation does the same to the row of each name as to its values. -/
theorem find?_tabulate (o : Operation) {rows : Rows} (h : rows.IsTable) (name : String) :
    ((o.tabulate rows).find? name).getD [] = o.replay name ((rows.find? name).getD []) := by
  cases o with
  | add other value =>
      rw [tabulate, Rows.find?_change h.ascending, replay]
      split
      · rename_i same
        rw [same, Option.getD_some]
      · rfl
  | set other value =>
      rw [tabulate, Rows.find?_change h.ascending, replay]
      split
      · rfl
      · rfl
  | addOption other value =>
      cases value with
      | none =>
          rw [tabulate, replay, Option.toList_none, List.append_nil, ite_self]
      | some value =>
          rw [tabulate, Rows.find?_change h.ascending, replay]
          split
          · rename_i same
            rw [same, Option.getD_some, Option.toList_some]
          · rfl
  | take other =>
      rw [tabulate, Rows.find?_remove, replay]
      split
      · rfl
      · rfl

end Operation

/-- The table that is collected from pairs and then changed by operations. -/
def tabled (pairs : List (String × String)) (operations : List Operation) : Rows :=
  (pairs.map (fun p => Operation.add p.1 p.2) ++ operations).foldl Operation.tabulate []

/-- What is left of the values of a name in the end, by what is done to that name. -/
def history (pairs : List (String × String)) (operations : List Operation) (name : String) :
    List String :=
  (operations.filter (·.name = name)).foldl Operation.perform (valuesIn pairs name)

theorem foldl_replay (operations : List Operation) (name : String) (values : List String) :
    operations.foldl (Operation.replay name) values =
      (operations.filter (·.name = name)).foldl Operation.perform values := by
  rw [List.foldl_filter]
  congr 1
  funext values o
  rw [o.replay_eq]
  simp only [decide_eq_true_eq]

theorem foldl_replay_add (pairs : List (String × String)) (name : String) :
    (pairs.map fun p => Operation.add p.1 p.2).foldl (Operation.replay name) [] =
      valuesIn pairs name := by
  induction pairs using List.reverseRecOn with
  | nil => rfl
  | append_singleton pairs p ih =>
      rw [List.map_append, List.foldl_append, ih, Rows.valuesIn_append, valuesIn_cons]
      show (if p.1 = name then _ else _) = _
      split
      · rfl
      · exact (List.append_nil _).symm

/-- However a table is come by, it is one. -/
theorem isTable_foldl (operations : List Operation) :
    (operations.foldl Operation.tabulate []).IsTable := by
  induction operations using List.reverseRecOn with
  | nil => exact ⟨.nil, fun _ hrow => absurd hrow List.not_mem_nil⟩
  | append_singleton operations o ih =>
      rw [List.foldl_append]
      exact o.isTable_tabulate ih

theorem find?_foldl (operations : List Operation) (name : String) :
    ((operations.foldl Operation.tabulate []).find? name).getD [] =
      operations.foldl (Operation.replay name) [] := by
  induction operations using List.reverseRecOn with
  | nil => rfl
  | append_singleton operations o ih =>
      rw [List.foldl_append, List.foldl_append, ← ih]
      exact o.find?_tabulate (isTable_foldl operations) name

section Made

variable (pairs : List (String × String)) (operations : List Operation)

theorem values_made_eq (name : String) :
    (made pairs operations).values name = history pairs operations name := by
  rw [values_made, foldl_replay, history]

theorem isTable_tabled : (tabled pairs operations).IsTable := isTable_foldl _

theorem find?_tabled (name : String) :
    ((tabled pairs operations).find? name).getD [] = history pairs operations name := by
  rw [tabled, find?_foldl, List.foldl_append, foldl_replay_add, foldl_replay, history]

/-- The rows written out are the pairs of the form with the same history. -/
theorem pairs_tabled : (tabled pairs operations).pairs = (made pairs operations).pairs := by
  have table := isTable_tabled pairs operations
  refine eq_of_valuesIn_eq (Rows.sorted_pairs table.ascending) (made pairs operations).sorted ?_
  intro name
  rw [table.valuesIn_pairs, find?_tabled, valuesIn_pairs, values_made_eq]

end Made

/-- A row is there exactly if it has values. -/
theorem Rows.IsTable.find?_eq {rows : Rows} (h : rows.IsTable) (name : String) :
    rows.find? name =
      if (rows.find? name).getD [] = [] then none else some ((rows.find? name).getD []) := by
  induction rows with
  | nil => rfl
  | cons r rows ih =>
      obtain ⟨first, others⟩ := List.forall_mem_cons.mp h.filled
      rw [find?]
      split
      · rw [Option.getD_some, if_neg first]
      · exact ih ⟨h.ascending.of_cons, others⟩

theorem isEmpty_iff_values_eq_nil (f : Form) : f.isEmpty = true ↔ ∀ name, f.values name = [] := by
  constructor
  · intro none name
    rw [← valuesIn_pairs, List.isEmpty_iff.mp none]
    rfl
  · intro none
    have same : f = empty := eq_of_values_eq none
    rw [same]
    rfl

theorem fst_take (f : Form) (name : String) :
    (f.take name).1 = if f.values name = [] then none else some (f.values name) := by
  by_cases none : f.values name = []
  · have absent : f.contains name = false :=
      Bool.eq_false_iff.mpr fun there => (f.contains_iff_values_ne_nil name).mp there none
    rw [if_pos none, Form.take, absent]
    rfl
  · have there : f.contains name = true := (f.contains_iff_values_ne_nil name).mpr none
    rw [if_neg none, Form.take, if_pos there]

/-- Whether a form and a table keep of each name the values that a log tells. -/
structure Keeps (f : Form) (rows : Rows) (log : String → List String) : Prop where
  /-- All values of a name, oldest first. -/
  values : ∀ name, f.values name = log name
  /-- The oldest value. -/
  oldest : ∀ name, f.get? name = (log name).head?
  /-- A name is there exactly if it has values. -/
  contains : ∀ name, f.contains name = true ↔ log name ≠ []
  /-- What is taken out is all values of a name that is there, and nothing of another. -/
  taken : ∀ name, (f.take name).1 = if log name = [] then none else some (log name)
  /-- There is nothing exactly if no name has a value. -/
  isEmpty : f.isEmpty = true ↔ ∀ name, log name = []
  /-- The table has a row for each name with values, and no other. -/
  row : ∀ name, rows.find? name = if log name = [] then none else some (log name)
  /-- No row is without values. -/
  filled : ∀ row ∈ rows, row.2 ≠ []
  /-- Form and table hold the same, in the same order. -/
  pairs : rows.pairs = f.pairs

/-- A form that is collected from pairs and then changed by operations keeps of each name what the
operations on it leave, and so does a table. -/
theorem keeps_history (pairs : List (String × String)) (operations : List Operation) :
    (made pairs operations).Keeps (tabled pairs operations) (history pairs operations) where
  values := values_made_eq pairs operations
  oldest name := congrArg List.head? (values_made_eq pairs operations name)
  contains name := by
    rw [contains_iff_values_ne_nil, values_made_eq]
  taken name := by
    rw [fst_take, values_made_eq]
  isEmpty := by
    rw [isEmpty_iff_values_eq_nil]
    exact forall_congr' fun name => by rw [values_made_eq]
  row name := by
    rw [(isTable_tabled pairs operations).find?_eq, find?_tabled]
  filled := (isTable_tabled pairs operations).filled
  pairs := pairs_tabled pairs operations

end RegionApi.Form
