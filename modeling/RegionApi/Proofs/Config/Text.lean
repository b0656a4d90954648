import RegionApi.Config.Text
import RegionApi.Proofs.Config.Paths

/-!
# Configurations outlive their text, but keys do not

A configuration is read back from its written form with all that it holds, except for the API key,
which is not written (`isKeptByText`). What is written is an object whose values are scalars, and
it is read as if the object were at hand (`ofText_object`).
-/

namespace RegionApi.Config

open Json (IsScalar)
open Text (utf8Chars)

/-! ## What is read -/

theorem isScalar_of_mem_named {ms : List (Field × Json)}
    (scalars : ∀ m ∈ ms, IsScalar (utf8Chars m.2.chars) m.2) :
    ∀ m ∈ named ms, IsScalar (utf8Chars m.2.chars) m.2 := by
  intro m hm
  obtain ⟨n, hn, rfl⟩ := List.mem_map.mp hm
  exact scalars n hn

/-- An object of members that fill a draft is read as the configuration it amounts to. -/
theorem ofText_object {e : Draft} {ms : List (Field × Json)} {c : Config}
    (scalars : ∀ m ∈ ms, IsScalar (utf8Chars m.2.chars) m.2) (fills : Fills .empty ms e)
    (finishes : e.finish = .ok c) : ofText (Json.text (.object (named ms))) = .ok c := by
  have each : ∀ m ∈ named ms, Json.Spells 0 (utf8Chars m.2.chars) m.2 :=
    isScalar_of_mem_named scalars
  have read : ofJson (.object (named ms)) = .ok c :=
    ofJson_object_eq_ok_iff.mpr ⟨e, by rwa [known_named], finishes⟩
  have alike := mirrors_ofText (isTextOf_of_laysOut (laysOut_object each))
  rw [← toOption_eq_some_iff, ← alike.toOption_eq, read]
  rfl

/-! ## What is written -/

theorem text_eq (c : Config) : c.text = Json.text (.object (named c.members)) := rfl

theorem isScalar_of_mem_members {c : Config} {m : Field × Json} (h : m ∈ c.members) :
    IsScalar (utf8Chars m.2.chars) m.2 := by
  simp only [members, List.cons_append, List.nil_append, List.mem_cons, List.mem_append,
    List.not_mem_nil, or_false, Option.mem_toList, Option.map_eq_some_iff] at h
  rcases h with rfl | rfl | ⟨path, -, rfl⟩ | rfl
  · exact .string (Json.isString_stringChars c.url)
  · exact Json.isScalar_bool c.verifyTls
  · exact .string (Json.isString_stringChars path)
  · exact Json.isScalar_integer (.ofUInt64 c.timeoutSeconds)

/-- The draft of all that is written of a configuration. -/
def written (c : Config) : Draft :=
  ⟨some c.url, none, some c.verifyTls, c.caCertificate.map some, some c.timeoutSeconds⟩

theorem fills_members (c : Config) : Fills .empty c.members c.written := by
  obtain ⟨url, key, verify, certificate, timeout⟩ := c
  have word (d : Draft) (new : d.has .timeout = false) :
      Fills d [(.timeout, .number (.integer (.ofUInt64 timeout)))]
        { d with timeout := some timeout } :=
    .cons new (by simp [Draft.put, Json.shape, Json.Shape.word, Except.map]) (.nil _)
  refine .cons rfl rfl (.cons rfl rfl ?_)
  cases certificate with
  | none => exact word _ rfl
  | some path => exact .cons rfl rfl (word _ rfl)

theorem finish_written (c : Config) : c.written.finish = .ok { c with apiKey := none } := by
  obtain ⟨url, key, verify, certificate, timeout⟩ := c
  cases certificate <;> rfl

/-- No member is written for the API key. -/
theorem find?_apiKey (c : Config) :
    Json.find? Field.apiKey.name (named c.members).reverse = none := by
  obtain ⟨url, key, verify, certificate, timeout⟩ := c
  cases certificate <;> rfl

/-- What is kept of a configuration by its text. -/
structure IsKeptByText (c : Config) : Prop where
  /-- The text is one of an object without an API key. -/
  object : ∃ fields, Json.IsText (Text.utf8 c.text) (.object fields) ∧
    Json.find? Field.apiKey.name fields = none
  /-- All of it is read back except for the API key. -/
  read : ofText c.text = .ok { c with apiKey := none }
  /-- The API key leaves no trace. -/
  keyless : ∀ key : Option String, ({ c with apiKey := key } : Config).text = c.text

/-- A configuration is kept by its text, whatever it holds. -/
theorem isKeptByText (c : Config) : c.IsKeptByText where
  object := by
    obtain ⟨fields, isText, found⟩ :=
      Json.exists_isText_object (isScalar_of_mem_named fun _ => isScalar_of_mem_members)
    exact ⟨fields, isText, (found _).trans (find?_apiKey c)⟩
  read := ofText_object (fun _ => isScalar_of_mem_members) (fills_members c) (finish_written c)
  keyless _ := rfl

end RegionApi.Config
