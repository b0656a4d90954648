import RegionApi.Text.Quoted

/-!
# Forms

A form is what a call sends as a query or as a body: names with values, a name as often as wanted.
The pairs are kept in ascending order of name, and values of one name in the order they came, so
that equal forms are written alike. `values` is the view: every operation says what it does to the
values of each name.
-/

namespace RegionApi

/-- Pairs of name and value, names ascending. -/
structure Form where
  pairs : List (String × String)
  sorted : pairs.Pairwise fun p q => p.1 ≤ q.1
deriving DecidableEq

namespace Form

@[ext] theorem ext {f g : Form} (h : f.pairs = g.pairs) : f = g := by
  cases f; cases g; cases h; rfl

/-! ## Building -/

/-- The form without pairs. -/
def empty : Form := ⟨[], .nil⟩

/-- A pair put behind every pair whose name is not greater. -/
def place (name value : String) : List (String × String) → List (String × String)
  | [] => [(name, value)]
  | p :: ps => if p.1 ≤ name then p :: place name value ps else (name, value) :: p :: ps

theorem mem_place {name value : String} {ps : List (String × String)} {p : String × String} :
    p ∈ place name value ps ↔ p = (name, value) ∨ p ∈ ps := by
  induction ps with
  | nil => simp [place]
  | cons q qs ih =>
      simp only [place]
      split
      · simp only [List.mem_cons, ih]
        exact ⟨fun h => by rcases h with h | h | h <;> simp [h],
          fun h => by rcases h with h | h | h <;> simp [h]⟩
      · simp

theorem place_sorted {name value : String} {ps : List (String × String)}
    (h : ps.Pairwise fun p q => p.1 ≤ q.1) :
    (place name value ps).Pairwise fun p q => p.1 ≤ q.1 := by
  induction ps with
  | nil => simp [place]
  | cons p ps ih =>
      obtain ⟨hp, hps⟩ := List.pairwise_cons.mp h
      simp only [place]
      split
      · rename_i hle
        refine List.pairwise_cons.mpr ⟨fun q hq => ?_, ih hps⟩
        rcases mem_place.mp hq with rfl | hq
        · exact hle
        · exact hp q hq
      · rename_i hnot
        have hlt : name ≤ p.1 := (String.le_total name p.1).resolve_right hnot
        refine List.pairwise_cons.mpr ⟨fun q hq => ?_, h⟩
        rcases List.mem_cons.mp hq with rfl | hq
        · exact hlt
        · exact String.le_trans hlt (hp q hq)

/-- One more value for a name, behind those it has. -/
def add (f : Form) (name value : String) : Form := ⟨place name value f.pairs, place_sorted f.sorted⟩

/-- One more value for a name if there is a value to add. -/
def addOption (f : Form) (name : String) : Option String → Form
  | none => f
  | some value => f.add name value

/-- The form without a name. -/
def erase (f : Form) (name : String) : Form :=
  ⟨f.pairs.filter (·.1 ≠ name), f.sorted.filter _⟩

/-- The form with one value for a name, in place of those it has. -/
def set (f : Form) (name value : String) : Form := (f.erase name).add name value

/-- The form that holds the given pairs. -/
def ofList (ps : List (String × String)) : Form := ps.foldl (fun f p => f.add p.1 p.2) empty

/-! ## Looking -/

/-- The values of a name, oldest first. -/
def values (f : Form) (name : String) : List String :=
  f.pairs.filterMap fun p => if p.1 = name then some p.2 else none

/-- The oldest value of a name. -/
def get? (f : Form) (name : String) : Option String := (f.values name).head?

/-- Whether a name has a value, be it the empty one. -/
def contains (f : Form) (name : String) : Bool := f.pairs.any (·.1 = name)

/-- Whether there is no pair. -/
def isEmpty (f : Form) : Bool := f.pairs.isEmpty

/-- The names that have values, ascending. -/
def names (f : Form) : List String := (f.pairs.map (·.1)).eraseReps

/-- The values of a name, if it has any, and the form without it. -/
def take (f : Form) (name : String) : Option (List String) × Form :=
  (if f.contains name then some (f.values name) else none, f.erase name)

@[simp] theorem pairs_empty : empty.pairs = [] := rfl

@[simp] theorem pairs_add (f : Form) (name value : String) :
    (f.add name value).pairs = place name value f.pairs := rfl

@[simp] theorem pairs_erase (f : Form) (name : String) :
    (f.erase name).pairs = f.pairs.filter (·.1 ≠ name) := rfl

theorem values_place (name value other : String) {ps : List (String × String)}
    (h : ps.Pairwise fun p q => p.1 ≤ q.1) :
    (place name value ps).filterMap (fun p => if p.1 = other then some p.2 else none) =
      ps.filterMap (fun p => if p.1 = other then some p.2 else none) ++
        if name = other then [value] else [] := by
  induction ps with
  | nil => by_cases e : name = other <;> simp [place, e]
  | cons p ps ih =>
      obtain ⟨hp, hps⟩ := List.pairwise_cons.mp h
      simp only [place]
      split
      · rename_i hle
        by_cases e : p.1 = other <;> simp [e, ih hps]
      · rename_i hnot
        by_cases e : name = other
        · subst e
          have none_after : ∀ q ∈ p :: ps, (if q.1 = name then some q.2 else none) = none := by
            intro q hq
            have hpq : p.1 ≤ q.1 := by
              rcases List.mem_cons.mp hq with rfl | hq
              · exact (String.le_total _ _).elim id id
              · exact hp q hq
            have hne : q.1 ≠ name := fun h => hnot (h ▸ hpq)
            simp [hne]
          rw [List.filterMap_cons]
          simp [List.filterMap_eq_nil_iff.mpr none_after]
        · simp [List.filterMap_cons, e]

/-- Adding puts the value behind those of its name and leaves all other names alone. -/
theorem values_add (f : Form) (name value other : String) :
    (f.add name value).values other =
      f.values other ++ if name = other then [value] else [] :=
  values_place name value other f.sorted

/-- Erasing leaves a name without values and all other names alone. -/
theorem values_erase (f : Form) (name other : String) :
    (f.erase name).values other = if name = other then [] else f.values other := by
  simp only [values, pairs_erase]
  induction f.pairs with
  | nil => simp
  | cons p ps ih =>
      by_cases e : p.1 = name <;> by_cases e' : name = other <;>
        simp_all [List.filterMap_cons]

/-- A name is there exactly if it has values. -/
theorem contains_iff_values_ne_nil (f : Form) (name : String) :
    f.contains name = true ↔ f.values name ≠ [] := by
  simp only [contains, values]
  induction f.pairs with
  | nil => simp
  | cons p ps ih => by_cases e : p.1 = name <;> simp [e]

/-! ## Showing -/

/-- A form as diagnostics show it: each name once, with the list of its values. -/
def describe (f : Form) : String :=
  let entry (name : String) : String :=
    Text.quoted name ++ ": " ++ Text.enclosed "[" "]" ((f.values name).map Text.quoted)
  "Params \x7b values: " ++ Text.enclosed "\x7b" "\x7d" (f.names.map entry) ++ " \x7d"

end Form

end RegionApi
