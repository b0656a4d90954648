import RegionApi.Proofs.OAuth.Header

/-!
# What signing changes

A plaintext signature signs every request. It puts its header, and nothing else, in place of all
authorizations that a request has, so of several signatures the last one counts. Whatever its
credentials and its realm are made of, the header is printable, and no quotes are in it but those
around its six values (`signs`).
-/

namespace RegionApi

namespace OAuth

/-! ## Quotes -/

/-- A field has its two quotes and no more. -/
theorem IsField.count_quote {f : String × String} {cs : List Char} (h : IsField f cs)
    (name : ∀ c ∈ f.1.toList, isNameChar c = true) : cs.count '"' = 2 := by
  obtain ⟨value, rfl, written, -⟩ := h
  have inName : '"' ∉ f.1.toList := fun hc => absurd (name _ hc) (by decide)
  have inValue : '"' ∉ value := fun hc => absurd (written _ hc) (by decide)
  simp [List.count_eq_zero.mpr inName, List.count_eq_zero.mpr inValue]

/-- Every part of a header is one of its fields. -/
theorem exists_of_mem_parts {fields : List (String × String)} {parts : List (List Char)}
    (h : List.Forall₂ IsField fields parts) {part : List Char} (hpart : part ∈ parts) :
    ∃ f ∈ fields, IsField f part := by
  induction h with
  | nil => cases hpart
  | cons isField _ ih =>
      rcases List.mem_cons.mp hpart with rfl | hpart
      · exact ⟨_, List.mem_cons_self, isField⟩
      · obtain ⟨f, hf, isField⟩ := ih hpart
        exact ⟨f, List.mem_cons_of_mem _ hf, isField⟩

/-- A header has two quotes a field. -/
theorem IsHeader.count_quote {fields : List (String × String)} {header : String}
    (h : IsHeader fields header)
    (names : ∀ f ∈ fields, ∀ c ∈ f.1.toList, isNameChar c = true) :
    header.toList.count '"' = 2 * fields.length := by
  obtain ⟨parts, text, isFields⟩ := h
  have scheme : "OAuth ".toList.count '"' = 0 := by decide
  have each : ∀ part ∈ parts, part.count '"' = 2 := by
    intro part hpart
    obtain ⟨f, hf, isField⟩ := exists_of_mem_parts isFields hpart
    exact isField.count_quote (names f hf)
  rw [text, List.count_append, scheme, Nat.zero_add, Text.count_intercalate (by decide) each,
    isFields.length_eq]

end OAuth

namespace Http.Headers

/-- After setting a field it is the only one of its name, and all others are as before. -/
theorem filter_set (hs : Headers) (h : Header) (name : String) :
    (set hs h).filter (·.name = name) =
      if h.name = name then [h] else hs.filter (·.name = name) := by
  rw [set, append, erase, List.filter_append, List.filter_filter]
  split
  · rename_i same
    subst same
    simp
  · rename_i other
    have kept : ∀ g ∈ hs, (decide (g.name = name) && decide (g.name ≠ h.name)) =
        decide (g.name = name) := by
      intro g _
      by_cases same : g.name = name
      · simp [same, Ne.symm other]
      · simp [same]
    rw [List.filter_congr kept]
    simp [other]

/-- Of two fields of one name the one that is set last is left. -/
theorem set_set {h g : Header} (same : h.name = g.name) (hs : Headers) :
    set (set hs h) g = set hs g := by
  have none : erase [h] g.name = [] := by
    rw [erase, List.filter_cons_of_neg (by simpa using same)]
    rfl
  have rest : erase (erase hs h.name) g.name = erase hs g.name := by
    rw [same]
    simp only [erase, List.filter_filter, Bool.and_self]
  rw [set, set, set, append, append, append, erase, List.filter_append, ← erase, ← erase, none,
    List.append_nil, rest]

end Http.Headers

namespace OAuth.Plaintext

open Http (Request)

/-- The header field of a signature. -/
def header (p : Plaintext) : Http.Header := ⟨"authorization", p.authorization, true⟩

/-- A request that is signed by one signature after the other. -/
def signInTurn (ps : List Plaintext) (r : Request) : Except Error Request :=
  ps.foldlM (fun r p => (Signer.plaintext p).sign r) r

/-- Whether a request is another one with the header of a signature as its only authorization. -/
structure IsSigned (p : Plaintext) (r s : Request) : Prop where
  method : s.method = r.method
  url : s.url = r.url
  body : s.body = r.body
  /-- There is one authorization, kept out of diagnostics. -/
  authorization : s.headers.filter (·.name = "authorization") = [p.header]
  /-- The fields of every other name are as they were. -/
  others : ∀ name, name ≠ "authorization" →
    s.headers.filter (·.name = name) = r.headers.filter (·.name = name)

theorem isSigned_setHeader (p : Plaintext) (r : Request) : p.IsSigned r (r.setHeader p.header) where
  method := rfl
  url := rfl
  body := rfl
  authorization := (Http.Headers.filter_set r.headers p.header "authorization").trans (if_pos rfl)
  others name other :=
    (Http.Headers.filter_set r.headers p.header name).trans (if_neg (Ne.symm other))

/-- Signing is forgotten once a request is signed again. -/
theorem sign_setHeader (p q : Plaintext) (r : Request) :
    (Signer.plaintext p).sign (r.setHeader q.header) = (Signer.plaintext p).sign r := by
  have name : q.header.name = p.header.name := rfl
  have fields : (r.headers.set q.header).set p.header = r.headers.set p.header :=
    Http.Headers.set_set name r.headers
  rw [Signer.sign_plaintext, Signer.sign_plaintext]
  show Except.ok { r with headers := (r.headers.set q.header).set p.header } = _
  rw [fields]
  rfl

theorem signInTurn_append_singleton (earlier : List Plaintext) (p : Plaintext) (r : Request) :
    signInTurn (earlier ++ [p]) r = (Signer.plaintext p).sign r := by
  induction earlier generalizing r with
  | nil => exact bind_pure _
  | cons q earlier ih =>
      rw [List.cons_append, signInTurn, List.foldlM_cons, Signer.sign_plaintext, ok_bind,
        ← signInTurn, ih]
      exact sign_setHeader p q r

/-- Whether a signature signs a request, changing nothing else, by a header that is fit for it. -/
structure Signs (p : Plaintext) (r : Request) : Prop where
  /-- The header is printable. -/
  printable : ∀ c ∈ p.authorization.toList, 0x20 ≤ c.toNat ∧ c.toNat ≤ 0x7e
  /-- No value breaks out of its quotes. -/
  quotes : p.authorization.toList.count '"' = 12
  /-- Signing succeeds and sets the authorization alone. -/
  signed : ∃ s, (Signer.plaintext p).sign r = .ok s ∧ p.IsSigned r s
  /-- Signatures before it make no difference. -/
  last : ∀ earlier, signInTurn (earlier ++ [p]) r = (Signer.plaintext p).sign r

/-- Every signature signs every request. -/
theorem signs (p : Plaintext) (r : Request) : p.Signs r where
  printable c hc := by
    have printable := isPrintable_of_mem_authorization p c hc
    simp only [isPrintable, Bool.and_eq_true, decide_eq_true_eq] at printable
    omega
  quotes := p.isHeader_authorization.count_quote p.isNameChar_of_mem_fields
  signed := ⟨_, Signer.sign_plaintext p r, p.isSigned_setHeader r⟩
  last earlier := signInTurn_append_singleton earlier p r

end OAuth.Plaintext

end RegionApi
