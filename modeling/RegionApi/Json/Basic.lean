import RegionApi.Json.Number

/-!
# JSON values

A value is a scalar, an array or an object. The members of an object are held in ascending order of
their names, each name once; `insert` keeps them so, and `IsCanonical` says it of a value and of all
values within.
-/

namespace RegionApi

/-- A JSON value. -/
inductive Json where
  | null
  | bool (b : Bool)
  | number (n : Json.Number)
  | string (s : String)
  | array (items : List Json)
  | object (members : List (String × Json))

namespace Json

/-! ## Members -/

/-- Members with one more; a member of the same name is replaced. -/
def insert (name : String) (value : Json) : List (String × Json) → List (String × Json)
  | [] => [(name, value)]
  | m :: ms =>
    if m.1 < name then m :: insert name value ms
    else if m.1 = name then (name, value) :: ms
    else (name, value) :: m :: ms

/-- The value of a member. -/
def find? (name : String) : List (String × Json) → Option Json
  | [] => none
  | m :: ms => if m.1 = name then some m.2 else find? name ms

/-- The value of a member of an object. -/
def get? (v : Json) (name : String) : Option Json :=
  match v with
  | object ms => find? name ms
  | _ => none

/-- The text of a string. -/
def text? : Json → Option String
  | string s => some s
  | _ => none

/-- Members in ascending order of their names, each name once. -/
def Ascending (ms : List (String × Json)) : Prop := ms.Pairwise fun m n => m.1 < n.1

theorem ascending_nil : Ascending [] := List.Pairwise.nil

theorem mem_insert_name {name : String} {value : Json} {ms : List (String × Json)}
    {m : String × Json} (h : m ∈ insert name value ms) : m.1 = name ∨ m ∈ ms := by
  induction ms with
  | nil => exact .inl (by simp_all [insert])
  | cons n ns ih =>
      simp only [insert] at h
      split at h
      · rcases List.mem_cons.mp h with rfl | h
        · exact .inr List.mem_cons_self
        · exact (ih h).imp_right (List.mem_cons_of_mem _)
      · split at h
        · rcases List.mem_cons.mp h with rfl | h
          · exact .inl rfl
          · exact .inr (List.mem_cons_of_mem _ h)
        · rcases List.mem_cons.mp h with rfl | h
          · exact .inl rfl
          · exact .inr h

/-- Inserting keeps the order. -/
theorem ascending_insert (name : String) (value : Json) {ms : List (String × Json)}
    (h : Ascending ms) : Ascending (insert name value ms) := by
  induction ms with
  | nil => exact List.pairwise_singleton _ _
  | cons m ms ih =>
      obtain ⟨hm, hms⟩ := List.pairwise_cons.mp h
      simp only [insert]
      split
      · rename_i lt
        refine List.pairwise_cons.mpr ⟨fun n hn => ?_, ih hms⟩
        rcases mem_insert_name hn with e | hn
        · exact e ▸ lt
        · exact hm n hn
      · split
        · rename_i e
          exact List.pairwise_cons.mpr ⟨fun n hn => e ▸ hm n hn, hms⟩
        · rename_i nlt ne
          have lt : name < m.1 := by
            refine Decidable.byContradiction fun h => ne ?_
            exact String.le_antisymm (String.not_lt.mp h) (String.not_lt.mp nlt)
          refine List.pairwise_cons.mpr ⟨fun n hn => ?_, h⟩
          rcases List.mem_cons.mp hn with rfl | hn
          · exact lt
          · exact String.lt_trans lt (hm n hn)

/-- An inserted member is found, and all others are found as before. -/
theorem find?_insert (name other : String) (value : Json) (ms : List (String × Json)) :
    find? other (insert name value ms) = if name = other then some value else find? other ms := by
  induction ms with
  | nil => simp [insert, find?]
  | cons m ms ih =>
      rw [insert]
      split
      · rename_i lt
        by_cases em : m.1 = other
        · have ne : name ≠ other := fun e => String.lt_irrefl other (by rw [em, e] at lt; exact lt)
          simp [find?, em, ne]
        · simp [find?, em, ih]
      · split
        · rename_i e
          by_cases eo : name = other <;> simp [find?, e, eo]
        · simp [find?]

/-! ## Nesting -/

mutual

/-- How many brackets deep a value goes. -/
def depth : Json → Nat
  | array items => depthOfItems items + 1
  | object members => depthOfMembers members + 1
  | _ => 0

/-- The greatest depth among the items of an array. -/
def depthOfItems : List Json → Nat
  | [] => 0
  | v :: vs => max v.depth (depthOfItems vs)

/-- The greatest depth among the members of an object. -/
def depthOfMembers : List (String × Json) → Nat
  | [] => 0
  | (_, v) :: ms => max v.depth (depthOfMembers ms)

end

/-- Whether the members of every object within a value are in order. -/
inductive IsCanonical : Json → Prop where
  | null : IsCanonical null
  | bool (b : Bool) : IsCanonical (bool b)
  | number (n : Number) : IsCanonical (number n)
  | string (s : String) : IsCanonical (string s)
  | array {items : List Json} (each : ∀ v ∈ items, IsCanonical v) : IsCanonical (array items)
  | object {members : List (String × Json)} (order : Ascending members)
      (each : ∀ m ∈ members, IsCanonical m.2) : IsCanonical (object members)

end Json

end RegionApi
