import RegionApi.Error

/-!
# Header fields

A message carries a list of header fields. A name may occur more than once and is written in lower
case; values of one name keep their order. `values` is the view.
-/

namespace RegionApi.Http

/-- A header field. A sensitive value is kept out of diagnostics. -/
structure Header where
  name : String
  value : String
  sensitive : Bool
deriving DecidableEq

namespace Header

/-- Whether a text may be a value: no control characters but the tab. -/
def isValue (s : String) : Bool :=
  s.toList.all fun c => c = '\t' || (0x20 ≤ c.toNat && c.toNat ≠ 0x7f)

/-- What a caller is told about a text that may not be a value. -/
def badValue : Error := .invalidArgument "invalid header value: failed to parse header value"

/-- A field with a checked value. -/
def ofValue (name value : String) (sensitive : Bool) : Except Error Header :=
  if isValue value then .ok ⟨name, value, sensitive⟩ else .error badValue

end Header

/-- The header fields of a message. -/
abbrev Headers := List Header

namespace Headers

/-- The values of a name, in their order. -/
def values (hs : Headers) (name : String) : List String :=
  (hs.filter (·.name = name)).map (·.value)

/-- The fields without those of a name. -/
def erase (hs : Headers) (name : String) : Headers := hs.filter (·.name ≠ name)

/-- The fields with one more at the end. -/
def append (hs : Headers) (h : Header) : Headers := hs ++ [h]

/-- The fields with one in place of all of its name. -/
def set (hs : Headers) (h : Header) : Headers := append (erase hs h.name) h

/-- The fields ordered by name, those of one name left in their order. -/
def sorted (hs : Headers) : Headers := hs.mergeSort fun a b => a.name ≤ b.name

@[simp] theorem values_append (hs : Headers) (h : Header) (name : String) :
    values (append hs h) name = values hs name ++ if h.name = name then [h.value] else [] := by
  by_cases e : h.name = name <;> simp [values, append, e]

@[simp] theorem values_erase (hs : Headers) (erased name : String) :
    values (erase hs erased) name = if erased = name then [] else values hs name := by
  induction hs with
  | nil => simp [values, erase]
  | cons h hs ih =>
      simp only [values, erase] at ih ⊢
      by_cases e : h.name = erased <;> by_cases e' : h.name = name <;>
        by_cases e'' : erased = name <;> simp_all

/-- After setting a field its name has that value alone, and all other names are as before. -/
theorem values_set (hs : Headers) (h : Header) (name : String) :
    values (set hs h) name = if h.name = name then [h.value] else values hs name := by
  by_cases e : h.name = name <;> simp [set, e]

end Headers

end RegionApi.Http
