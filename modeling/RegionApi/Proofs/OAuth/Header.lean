import Mathlib.Data.List.Forall2
import RegionApi.Proofs.OAuth.Key
import RegionApi.Proofs.OAuth.Plaintext

/-!
# The authorization header is read back

A header is a scheme and fields, and a field is a name and an encoded value between quotes. Letters,
digits and a few marks are all that an encoded value is made of, so no quote ends it early and no
comma cuts the field: the fields are found again, and each tells its value whatever characters that
has (`headerFields?_of_isHeader`). As the fields of a signature tell its key and its realm, so does
the header (`authorization_tells`).
-/

namespace RegionApi.OAuth

/-! ## Fields as they are written -/

/-- The characters of an encoded value. -/
def isWritten (c : Char) : Bool := Plaintext.kept c || c = '%'

/-- The characters of the name of a field. -/
def isNameChar (c : Char) : Bool := c.isAlpha || c = '_'

/-- Whether some characters are a field: the name, and between quotes the value, encoded. -/
def IsField (f : String × String) (cs : List Char) : Prop :=
  ∃ value, cs = f.1.toList ++ '=' :: '"' :: value ++ ['"'] ∧
    (∀ c ∈ value, isWritten c = true) ∧
    Text.ofUtf8? (Text.Percent.decodeChars value) = some f.2

/-- Whether a text is a header of the scheme `OAuth` with some fields, commas between them. -/
def IsHeader (fields : List (String × String)) (header : String) : Prop :=
  ∃ parts, header.toList = "OAuth ".toList ++ [',', ' '].intercalate parts ∧
    List.Forall₂ IsField fields parts

theorem isWritten_of_mem_encodeChars (s : String) :
    ∀ c ∈ Text.Percent.encodeChars Plaintext.kept s.toList, isWritten c = true :=
  Text.Percent.forall_mem_encodeChars (fun c hc => by simp [isWritten, hc]) (by decide)
    (by decide) s.toList

theorem Plaintext.isField_field (f : String × String) : IsField f (field f).toList := by
  refine ⟨Text.Percent.encodeChars kept f.2.toList, ?_, isWritten_of_mem_encodeChars f.2,
    Text.Percent.ofUtf8?_decodeChars_encodeChars (by decide) f.2⟩
  simp [field, Text.Percent.encode]

/-- The header of a signature is written as its fields. -/
theorem Plaintext.isHeader_authorization (p : Plaintext) : IsHeader p.fields p.authorization := by
  refine ⟨p.fields.map fun f => (field f).toList, ?_, ?_⟩
  · rw [authorization, String.toList_append, String.toList_intercalate, List.map_map]
    rfl
  · rw [List.forall₂_map_right_iff]
    exact List.forall₂_same.mpr fun f _ => isField_field f

/-! ## Fields as they are read -/

section Field

variable {f : String × String} {cs : List Char}

/-- A field is read back if its name holds no equals sign, at which it would end. -/
theorem IsField.headerField?_eq (h : IsField f cs) (name : ∀ c ∈ f.1.toList, isNameChar c = true) :
    headerField? cs = some f := by
  obtain ⟨value, rfl, -, decoded⟩ := h
  have before : ∀ c ∈ f.1.toList, decide (c ≠ '=') = true := by
    intro c hc
    apply decide_eq_true
    rintro rfl
    exact absurd (name _ hc) (by decide)
  have ends : (value ++ ['"']).getLast? = some '"' := List.getLast?_concat
  have inner : (value ++ ['"']).dropLast = value := List.dropLast_concat
  simp only [headerField?, List.append_assoc, List.cons_append,
    List.dropWhile_append_of_pos before, List.takeWhile_append_of_pos before]
  simp [ends, inner, decoded]

/-- Neither a separator nor a space before the name is part of a field. -/
theorem IsField.comma_notMem (h : IsField f cs) (name : ∀ c ∈ f.1.toList, isNameChar c = true) :
    ',' ∉ cs := by
  obtain ⟨value, rfl, written, -⟩ := h
  have inName : ',' ∉ f.1.toList := fun hc => absurd (name _ hc) (by decide)
  have inValue : ',' ∉ value := fun hc => absurd (written _ hc) (by decide)
  simp [inName, inValue]

theorem IsField.dropWhile_space (h : IsField f cs)
    (name : ∀ c ∈ f.1.toList, isNameChar c = true) : cs.dropWhile (· = ' ') = cs := by
  obtain ⟨value, rfl, -, -⟩ := h
  cases letters : f.1.toList with
  | nil => rfl
  | cons c rest =>
      have ne : c ≠ ' ' := by
        rintro rfl
        exact absurd (name _ (letters ▸ List.mem_cons_self)) (by decide)
      simp [ne]

end Field

section Fields

variable {fields : List (String × String)} {parts : List (List Char)}

/-- Fields are read back one by one. -/
theorem mapM_headerField? (h : List.Forall₂ IsField fields parts)
    (names : ∀ f ∈ fields, ∀ c ∈ f.1.toList, isNameChar c = true) :
    parts.mapM headerField? = some fields := by
  induction h with
  | nil => rfl
  | cons isField _ ih =>
      have first := isField.headerField?_eq (names _ List.mem_cons_self)
      have rest := ih fun f hf => names f (List.mem_cons_of_mem _ hf)
      simp [List.mapM_cons, first, rest]

theorem forall_mem_of_forall₂_isField {P : List Char → Prop} (h : List.Forall₂ IsField fields parts)
    (names : ∀ f ∈ fields, ∀ c ∈ f.1.toList, isNameChar c = true)
    (each : ∀ f cs, IsField f cs → (∀ c ∈ f.1.toList, isNameChar c = true) → P cs) :
    ∀ part ∈ parts, P part := by
  induction h with
  | nil => exact fun part hpart => absurd hpart List.not_mem_nil
  | cons isField _ ih =>
      intro part hpart
      rcases List.mem_cons.mp hpart with rfl | hpart
      · exact each _ _ isField (names _ List.mem_cons_self)
      · exact ih (fun f hf => names f (List.mem_cons_of_mem _ hf)) part hpart

/-- The fields are what stands between the commas, but for the space before each but the first. -/
theorem map_dropWhile_splitOn {part : List Char} (comma : ∀ p ∈ part :: parts, ',' ∉ p)
    (space : ∀ p ∈ part :: parts, p.dropWhile (· = ' ') = p) :
    (List.splitOn ',' ([',', ' '].intercalate (part :: parts))).map
      (fun cs => cs.dropWhile (· = ' ')) = part :: parts := by
  have split : List.splitOn ',' ([','].intercalate (part :: parts.map (' ' :: ·))) =
      part :: parts.map (' ' :: ·) := by
    refine List.splitOn_intercalate ',' ?_ (List.cons_ne_nil _ _)
    intro p hp
    rcases List.mem_cons.mp hp with rfl | hp
    · exact comma _ List.mem_cons_self
    · obtain ⟨q, hq, rfl⟩ := List.mem_map.mp hp
      simpa using comma q (List.mem_cons_of_mem _ hq)
  have rest : parts.map (fun cs => (' ' :: cs).dropWhile (· = ' ')) = parts := by
    calc parts.map (fun cs => (' ' :: cs).dropWhile (· = ' '))
        = parts.map id := List.map_congr_left fun p hp => space p (List.mem_cons_of_mem _ hp)
      _ = parts := List.map_id _
  rw [Text.intercalate_pair_cons, split, List.map_cons, List.map_map, space _ List.mem_cons_self]
  exact congrArg (part :: ·) rest

/-- Every header is read back as its fields, whatever their values are. -/
theorem headerFields?_of_isHeader {f : String × String} {header : String}
    (h : IsHeader (f :: fields) header)
    (names : ∀ g ∈ f :: fields, ∀ c ∈ g.1.toList, isNameChar c = true) :
    headerFields? header = some (f :: fields) := by
  obtain ⟨parts, text, isFields⟩ := h
  obtain ⟨part, parts, -, -, rfl⟩ := List.forall₂_cons_left_iff.mp isFields
  have scheme : "OAuth ".toList.isPrefixOf header.toList = true := by
    rw [text]
    exact List.isPrefixOf_iff_prefix.mpr (List.prefix_append _ _)
  have behind : header.toList.drop 6 = [',', ' '].intercalate (part :: parts) := by
    rw [text]
    rfl
  have comma := forall_mem_of_forall₂_isField isFields names fun _ _ => IsField.comma_notMem
  have space := forall_mem_of_forall₂_isField isFields names fun _ _ => IsField.dropWhile_space
  rw [headerFields?, if_pos scheme]
  simp only [behind, map_dropWhile_splitOn comma space]
  exact mapM_headerField? isFields names

end Fields

/-! ## Signatures -/

namespace Plaintext

theorem isNameChar_of_mem_fields (p : Plaintext) :
    ∀ f ∈ p.fields, ∀ c ∈ f.1.toList, isNameChar c = true := by
  have names : (p.fields.map Prod.fst).all (fun name => name.toList.all isNameChar) = true := by
    rw [fields_map_fst]
    decide
  intro f hf
  exact List.all_eq_true.mp (List.all_eq_true.mp names f.1 (List.mem_map_of_mem hf))

/-- The header of a signature is read back as its fields. -/
theorem headerFields?_authorization (p : Plaintext) :
    headerFields? p.authorization = some p.fields :=
  headerFields?_of_isHeader p.isHeader_authorization p.isNameChar_of_mem_fields

theorem fields_eq_of_authorization_eq {p q : Plaintext} (h : p.authorization = q.authorization) :
    p.fields = q.fields := by
  have read : some p.fields = some q.fields := by
    rw [← headerFields?_authorization, h, headerFields?_authorization]
  exact Option.some.inj read

/-- Fields with the same consumer secret are those of the same credentials and realm. -/
theorem eq_of_fields_eq {p q : Plaintext} (h : p.fields = q.fields)
    (secret : p.credentials.consumerSecret = q.credentials.consumerSecret) :
    p.credentials = q.credentials ∧ p.realm = q.realm := by
  obtain ⟨⟨consumerKey, consumerSecret, tokenKey, tokenSecret⟩, realm, complete⟩ := p
  obtain ⟨⟨consumerKey', consumerSecret', tokenKey', tokenSecret'⟩, realm', complete'⟩ := q
  cases secret
  simp only [fields, signature, List.cons.injEq, Prod.mk.injEq, true_and, and_true] at h
  obtain ⟨rfl, rfl, signature, rfl⟩ := h
  have token : tokenSecret = tokenSecret' := by
    have chars := congrArg String.toList signature
    simp only [String.toList_append, List.append_cancel_left_eq] at chars
    exact String.toList_inj.mp chars
  subst token
  exact ⟨rfl, rfl⟩

/-- Whether a signature is the one for an API key in a realm. -/
def IsFor (p : Plaintext) (key realm : String) : Prop :=
  ∃ c, Credentials.ofKey key = .ok c ∧ ofCredentials c realm = .ok p

/-- There is a signature in every realm for a key without empty fields. -/
theorem exists_isFor {key : String} (wellFormed : IsWellFormedKey key) (realm : String) :
    ∃ p : Plaintext, p.IsFor key realm := by
  obtain ⟨consumerKey, tokenKey, tokenSecret, isKey, complete⟩ := wellFormed
  let p : Plaintext := ⟨⟨consumerKey, "", tokenKey, tokenSecret⟩, realm, complete⟩
  exact ⟨p, p.credentials, isKey.ofKey_eq, ofCredentials_eq_ok_iff.mpr ⟨rfl, rfl⟩⟩

section IsFor

variable {p : Plaintext} {key realm : String} (isFor : p.IsFor key realm)
include isFor

/-- The signature for a key has the fields of the key. -/
theorem IsFor.credentials_eq {consumerKey tokenKey tokenSecret : String}
    (isKey : IsKey key consumerKey tokenKey tokenSecret) :
    p.credentials = ⟨consumerKey, "", tokenKey, tokenSecret⟩ := by
  obtain ⟨c, read, made⟩ := isFor
  rw [isKey.ofKey_eq] at read
  cases read
  exact (ofCredentials_eq_ok_iff.mp made).1

theorem IsFor.realm_eq : p.realm = realm := by
  obtain ⟨c, -, made⟩ := isFor
  exact (ofCredentials_eq_ok_iff.mp made).2

end IsFor

/-- The signature for a key in the default realm is the one that a client is set up with. -/
theorem IsFor.ofKey_eq {p : Plaintext} {key : String} (isFor : p.IsFor key defaultRealm) :
    ofKey key = .ok p := by
  obtain ⟨c, read, made⟩ := isFor
  rw [ofKey, read]
  exact made

/-- Signatures for API keys have the same header only if keys and realms are the same. -/
theorem authorization_eq_iff {p q : Plaintext} {key₁ key₂ realm₁ realm₂ : String}
    (first : p.IsFor key₁ realm₁) (second : q.IsFor key₂ realm₂) :
    p.authorization = q.authorization ↔ key₁ = key₂ ∧ realm₁ = realm₂ := by
  obtain ⟨c, read₁, made₁⟩ := first
  obtain ⟨d, read₂, made₂⟩ := second
  constructor
  · intro same
    obtain ⟨rfl, rfl⟩ := ofCredentials_eq_ok_iff.mp made₁
    obtain ⟨rfl, rfl⟩ := ofCredentials_eq_ok_iff.mp made₂
    have secret : p.credentials.consumerSecret = q.credentials.consumerSecret := by
      rw [(Credentials.ofKey_eq_ok_iff.mp read₁).2, (Credentials.ofKey_eq_ok_iff.mp read₂).2]
    obtain ⟨credentials, realm⟩ := eq_of_fields_eq (fields_eq_of_authorization_eq same) secret
    exact ⟨Credentials.key_eq_of_ofKey_eq_ok read₁ (credentials ▸ read₂), realm⟩
  · rintro ⟨rfl, rfl⟩
    cases read₁.symm.trans read₂
    cases made₁.symm.trans made₂
    rfl

/-- A signature is made of any key and secrets that are there, and its header tells them together
with the realm: it is six fields of the scheme `OAuth`, each value encoded between quotes, and is
read back as these. So the header of a signature for an API key tells the key. -/
theorem authorization_tells :
    (∀ consumerKey consumerSecret tokenKey tokenSecret realm : String,
      consumerKey ≠ "" → tokenKey ≠ "" → tokenSecret ≠ "" →
      ∃ p fields,
        ofCredentials ⟨consumerKey, consumerSecret, tokenKey, tokenSecret⟩ realm = .ok p ∧
        fields = [("oauth_consumer_key", consumerKey),
          ("oauth_token", tokenKey),
          ("oauth_signature_method", "PLAINTEXT"),
          ("oauth_signature", consumerSecret ++ "&" ++ tokenSecret),
          ("oauth_version", "1.0"),
          ("realm", realm)] ∧
        IsHeader fields p.authorization ∧
        headerFields? p.authorization = some fields) ∧
    ∀ (p q : Plaintext) (key₁ key₂ realm₁ realm₂ : String),
      p.IsFor key₁ realm₁ → q.IsFor key₂ realm₂ →
      (p.authorization = q.authorization ↔ key₁ = key₂ ∧ realm₁ = realm₂) := by
  refine ⟨fun consumerKey consumerSecret tokenKey tokenSecret realm consumer token secret => ?_,
    fun p q key₁ key₂ realm₁ realm₂ => authorization_eq_iff⟩
  let p : Plaintext :=
    ⟨⟨consumerKey, consumerSecret, tokenKey, tokenSecret⟩, realm, consumer, token, secret⟩
  exact ⟨p, p.fields, ofCredentials_eq_ok_iff.mpr ⟨rfl, rfl⟩, rfl, p.isHeader_authorization,
    p.headerFields?_authorization⟩

/-- Quotes, separators, line breaks and letters beyond ASCII, and two keys that differ in their last
letter. -/
theorem authorization_tells_marks :
    (∃ p, ofCredentials ⟨"a\"b", "c=d", "%22, é", "\r\n"⟩ "x\", realm=\"y" = .ok p ∧
      headerFields? p.authorization = some [("oauth_consumer_key", "a\"b"),
        ("oauth_token", "%22, é"), ("oauth_signature_method", "PLAINTEXT"),
        ("oauth_signature", "c=d&\r\n"), ("oauth_version", "1.0"),
        ("realm", "x\", realm=\"y")]) ∧
    ∃ p q : Plaintext, p.IsFor "c:t:s" "r" ∧ q.IsFor "c:t:z" "r" ∧
      p.authorization ≠ q.authorization := by
  obtain ⟨p, fields, made, told, -, read⟩ := authorization_tells.1 "a\"b" "c=d" "%22, é" "\r\n"
    "x\", realm=\"y" (by decide) (by decide) (by decide)
  refine ⟨⟨p, made, read.trans (congrArg some told)⟩, ?_⟩
  have first : IsFor ⟨⟨"c", "", "t", "s"⟩, "r", by decide⟩ "c:t:s" "r" := ⟨_, by rfl, by rfl⟩
  have second : IsFor ⟨⟨"c", "", "t", "z"⟩, "r", by decide⟩ "c:t:z" "r" := ⟨_, by rfl, by rfl⟩
  refine ⟨_, _, first, second, fun same => ?_⟩
  exact absurd ((authorization_tells.2 _ _ _ _ _ _ first second).mp same).1 (by decide)

end Plaintext

end RegionApi.OAuth
