import Mathlib.Data.List.Induction
import Mathlib.Logic.Function.Defs
import RegionApi.Proofs.Form.Encoding
import RegionApi.Proofs.Form.Pairs
import RegionApi.Proofs.Text.Order

/-!
# Writing a form loses nothing

However a form was come by, its written form is read back as its pairs: the names in the order of
their bytes, and the values of each name as they were put in (`written_in_full`). So forms that are
written alike are the same, and only the empty one is written as nothing.
-/

namespace RegionApi.Form

/-! ## Histories -/

/-- What can be done to a form. -/
inductive Operation where
  | add (name value : String)
  | set (name value : String)
  | addOption (name : String) (value : Option String)
  | take (name : String)

namespace Operation

/-- The form after an operation. -/
def apply (f : Form) : Operation → Form
  | add name value => f.add name value
  | set name value => f.set name value
  | addOption name value => f.addOption name value
  | take name => (f.take name).2

/-- The values of a name after an operation, by what it says alone. -/
def replay (name : String) (values : List String) : Operation → List String
  | add other value => if other = name then values ++ [value] else values
  | set other value => if other = name then [value] else values
  | addOption other value => if other = name then values ++ value.toList else values
  | take other => if other = name then [] else values

/-- An operation does what it says. -/
theorem values_apply (o : Operation) (f : Form) (name : String) :
    (o.apply f).values name = o.replay name (f.values name) := by
  cases o with
  | add other value =>
      rw [apply, values_add, replay]
      split <;> simp
  | set other value => rw [apply, values_set, replay]
  | addOption other value =>
      cases value with
      | none => simp [apply, Form.addOption, replay]
      | some value =>
          rw [apply, Form.addOption, values_add, replay]
          split <;> simp
  | take other => rw [apply, Form.take, values_erase, replay]

end Operation

/-- The form that is collected from pairs and then changed by operations. -/
def made (pairs : List (String × String)) (operations : List Operation) : Form :=
  operations.foldl Operation.apply (ofList pairs)

theorem ofList_append_singleton (pairs : List (String × String)) (p : String × String) :
    ofList (pairs ++ [p]) = (ofList pairs).add p.1 p.2 := by
  rw [ofList, List.foldl_append]
  rfl

/-- Collecting keeps the values of each name in their order. -/
theorem values_ofList (pairs : List (String × String)) (name : String) :
    (ofList pairs).values name = valuesIn pairs name := by
  induction pairs using List.reverseRecOn with
  | nil => rfl
  | append_singleton pairs p ih =>
      rw [ofList_append_singleton, values_add, ih, valuesIn, valuesIn, List.filterMap_append]
      by_cases same : p.1 = name <;> simp [same]

/-- The values of each name are those of its history. -/
theorem values_made (pairs : List (String × String)) (operations : List Operation)
    (name : String) : (made pairs operations).values name =
      operations.foldl (Operation.replay name) (valuesIn pairs name) := by
  induction operations using List.reverseRecOn with
  | nil => exact values_ofList pairs name
  | append_singleton operations o ih =>
      rw [made, List.foldl_append, List.foldl_append, ← ih]
      exact o.values_apply _ name

/-! ## Collecting the pairs of a form -/

/-- A pair whose name is not less than the others is put behind them. -/
theorem place_of_forall_le {pairs : List (String × String)} {name : String}
    (last : ∀ p ∈ pairs, p.1 ≤ name) (value : String) :
    place name value pairs = pairs ++ [(name, value)] := by
  induction pairs with
  | nil => rfl
  | cons p pairs ih =>
      obtain ⟨le, last⟩ := List.forall_mem_cons.mp last
      rw [place, if_pos le, ih last, List.cons_append]

theorem pairs_ofList {pairs : List (String × String)}
    (sorted : pairs.Pairwise fun p q => p.1 ≤ q.1) : (ofList pairs).pairs = pairs := by
  induction pairs using List.reverseRecOn with
  | nil => rfl
  | append_singleton pairs p ih =>
      obtain ⟨sorted, -, last⟩ := List.pairwise_append.mp sorted
      rw [ofList_append_singleton, pairs_add, ih sorted]
      exact place_of_forall_le (fun q hq => last q hq p (List.mem_singleton_self p)) p.2

/-- A form is collected again from its pairs. -/
theorem ofList_pairs (f : Form) : ofList f.pairs = f := Form.ext (pairs_ofList f.sorted)

/-! ## The written form -/

/-- Forms that are written alike are the same. -/
theorem encode_injective : Function.Injective encode := by
  intro f g same
  have pairs : some f.pairs = some g.pairs := by
    rw [← decode?_encode, ← decode?_encode, same]
  exact Form.ext (Option.some.inj pairs)

theorem encode_eq_empty_iff (f : Form) : f.encode = "" ↔ f.isEmpty = true := by
  constructor
  · intro nothing
    have same : f = empty := encode_injective nothing
    rw [same]
    rfl
  · intro none
    have same : f = empty := Form.ext (List.isEmpty_iff.mp none)
    rw [same]
    rfl

/-- The names of a form are in the order of their bytes. -/
theorem sorted_utf8 (f : Form) :
    f.pairs.Pairwise fun p q => Text.utf8 p.1 ≤ Text.utf8 q.1 :=
  f.sorted.imp Text.utf8_le_iff.mpr

theorem isAlphanum_or_mem_of_mem_encode {f : Form} {c : Char} (h : c ∈ f.encode.toList) :
    c.isAlphanum = true ∨ c ∈ ['*', '-', '.', '_', '+', '%', '=', '&'] := by
  rcases isWritten_or_separator_of_mem_encode h with h | rfl | rfl
  · simp only [isWritten, kept, Bool.or_eq_true, decide_eq_true_eq] at h
    rcases h with (((((h | rfl) | rfl) | rfl) | rfl) | rfl) | rfl
    · exact .inl h
    all_goals exact .inr (by decide)
  · exact .inr (by decide)
  · exact .inr (by decide)

/-- Whether nothing of a form is lost when it is written, if each name should have given values. -/
structure WrittenInFull (f : Form) (values : String → List String) : Prop where
  /-- The pairs are read back. -/
  read : decode? f.encode = some f.pairs
  /-- The names ascend by their bytes. -/
  ascending : f.pairs.Pairwise fun p q => Text.utf8 p.1 ≤ Text.utf8 q.1
  /-- Each name has its values, in order. -/
  values : ∀ name, valuesIn f.pairs name = values name
  /-- Collecting the pairs makes the form again. -/
  collected : ofList f.pairs = f
  /-- The written form is plain. -/
  plain : ∀ c ∈ f.encode.toList,
    c.isAlphanum = true ∨ c ∈ ['*', '-', '.', '_', '+', '%', '=', '&']
  /-- Only the empty form is written as nothing. -/
  empty : f.encode = "" ↔ f.isEmpty = true
  /-- No other form is written alike. -/
  unique : ∀ g : Form, g.encode = f.encode → g = f

/-- A form that is collected from pairs and then changed by operations is written in full: each name
has what its history says. -/
theorem written_in_full (pairs : List (String × String)) (operations : List Operation) :
    (made pairs operations).WrittenInFull fun name =>
      operations.foldl (Operation.replay name) (valuesIn pairs name) where
  read := decode?_encode _
  ascending := sorted_utf8 _
  values name := (valuesIn_pairs _ name).trans (values_made pairs operations name)
  collected := ofList_pairs _
  plain := fun _ => isAlphanum_or_mem_of_mem_encode
  empty := encode_eq_empty_iff _
  unique := fun _ same => encode_injective same

/-- An empty name with an empty value does not vanish, and a name that is set again is written where
it belongs. -/
example : (((ofList [("b", "2"), ("", "")]).set "b" "&").add "a" "é ").encode =
    "=&a=%C3%A9+&b=%26" := by
  decide +kernel

end RegionApi.Form
