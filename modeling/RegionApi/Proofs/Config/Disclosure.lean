import RegionApi.Config.Text
import RegionApi.Proofs.OAuth.Header
import RegionApi.Proofs.Text.Quoted

/-!
# What printed forms disclose

The description of credentials tells the two keys and neither secret, and so does that of a
signature, which tells the realm besides. The written form of a configuration leaves out its API
key. The description of a configuration is another matter: it tells all that the configuration
holds (`Config.describe_injective`). So of these four the last one alone discloses the token secret
of an API key (`OAuth.printedAlike_iff`).
-/

namespace RegionApi

/-! ## Credentials and signatures -/

namespace OAuth

/-- The description of credentials tells the keys and nothing else. -/
theorem Credentials.describe_eq_iff {c d : Credentials} :
    c.describe = d.describe ↔ c.consumerKey = d.consumerKey ∧ c.tokenKey = d.tokenKey := by
  unfold describe
  simp only [String.append_assoc, String.append_right_inj, Text.quoted_append_inj, and_true]

/-- The description of a signature tells the keys and the realm and nothing else. -/
theorem Plaintext.describe_eq_iff {p q : Plaintext} :
    p.describe = q.describe ↔ p.credentials.consumerKey = q.credentials.consumerKey ∧
      p.credentials.tokenKey = q.credentials.tokenKey ∧ p.realm = q.realm := by
  unfold describe Credentials.describe
  simp only [String.append_assoc, String.append_right_inj, Text.quoted_append_inj, and_true]

end OAuth

/-! ## Configurations -/

namespace Config

/-- An optional text is told from its description, and so is what follows. -/
theorem describeOption_append_inj {a b : Option String} {r s : String} :
    describeOption a ++ r = describeOption b ++ s ↔ a = b ∧ r = s := by
  -- The descriptions of nothing and of something differ in their first letter.
  have apart (t r s : String) : "None" ++ r ≠ describeOption (some t) ++ s :=
    ne_of_apply_ne (fun u => u.toList.head?) (by simp [describeOption])
  cases a with
  | none =>
      cases b with
      | none => simp [describeOption]
      | some t => exact iff_of_false (apart t r s) fun h => Option.some_ne_none t h.1.symm
  | some t =>
      cases b with
      | none => exact iff_of_false (fun h => apart t s r h.symm) fun h => Option.some_ne_none t h.1
      | some t' =>
          simp only [describeOption, String.append_assoc, String.append_right_inj,
            Text.quoted_append_inj, Option.some.injEq]

/-- Whether something is on is told from its description, and so is what follows. -/
theorem describeBool_append_inj {a b : Bool} {r s : String} :
    (if a then "true" else "false") ++ r = (if b then "true" else "false") ++ s ↔
      a = b ∧ r = s := by
  have apart (r s : String) : "true" ++ r ≠ "false" ++ s :=
    ne_of_apply_ne (fun u => u.toList.head?) (by simp)
  cases a <;> cases b <;> simp [apart, (apart _ _).symm]

/-- A configuration is told by its description. -/
theorem describe_injective : Function.Injective describe := by
  rintro ⟨url, key, verify, certificate, timeout⟩ ⟨url', key', verify', certificate', timeout'⟩ h
  unfold describe at h
  simp only [String.append_assoc, String.append_right_inj, Text.quoted_append_inj,
    describeOption_append_inj, describeBool_append_inj, String.append_left_inj] at h
  obtain ⟨rfl, rfl, rfl, rfl, digits⟩ := h
  have seconds : timeout.toNat = timeout'.toNat :=
    Text.decimal_injective (String.ofList_injective digits)
  rw [UInt64.toNat_inj.mp seconds]

/-- Two configurations that differ in the API key alone are described alike only if they do not
differ. -/
theorem describe_withApiKey_eq_iff {c : Config} {key₁ key₂ : String} :
    (c.withApiKey key₁).describe = (c.withApiKey key₂).describe ↔ key₁ = key₂ := by
  constructor
  · intro h
    exact Option.some.inj (congrArg apiKey (describe_injective h))
  · rintro rfl
    rfl

end Config

/-! ## API keys -/

namespace OAuth

/-- Whether two API keys look the same in the descriptions of their credentials and of their
signatures in a realm, and in the written form of a configuration. -/
structure LookAlike (key₁ key₂ realm : String) (c : Config) : Prop where
  /-- Both have credentials, with one description. -/
  credentials : ∃ a b, Credentials.ofKey key₁ = .ok a ∧ Credentials.ofKey key₂ = .ok b ∧
    a.describe = b.describe
  /-- Unless a field is empty, both have signatures, with one description. -/
  signatures : IsWellFormedKey key₁ → IsWellFormedKey key₂ →
    ∃ p q : Plaintext, p.IsFor key₁ realm ∧ q.IsFor key₂ realm ∧ p.describe = q.describe
  /-- The configuration is written in the same way with both. -/
  texts : (c.withApiKey key₁).text = (c.withApiKey key₂).text

/-- Whether two API keys are printed in the same way: in the description of the configuration, too,
nothing tells them apart. -/
structure PrintedAlike (key₁ key₂ realm : String) (c : Config) : Prop
    extends LookAlike key₁ key₂ realm c where
  descriptions : (c.withApiKey key₁).describe = (c.withApiKey key₂).describe

section Keys

variable {key₁ key₂ consumerKey tokenKey secret₁ secret₂ : String}
  (first : IsKey key₁ consumerKey tokenKey secret₁)
  (second : IsKey key₂ consumerKey tokenKey secret₂)
include first second

/-- API keys look the same if they have the consumer key and the token key in common. -/
theorem IsKey.lookAlike (realm : String) (c : Config) : LookAlike key₁ key₂ realm c where
  credentials :=
    ⟨_, _, first.ofKey_eq, second.ofKey_eq, Credentials.describe_eq_iff.mpr ⟨rfl, rfl⟩⟩
  signatures wellFormed₁ wellFormed₂ := by
    obtain ⟨p, isFor₁⟩ := Plaintext.exists_isFor wellFormed₁ realm
    obtain ⟨q, isFor₂⟩ := Plaintext.exists_isFor wellFormed₂ realm
    refine ⟨p, q, isFor₁, isFor₂, Plaintext.describe_eq_iff.mpr ?_⟩
    rw [isFor₁.credentials_eq first, isFor₂.credentials_eq second]
    exact ⟨rfl, rfl, isFor₁.realm_eq.trans isFor₂.realm_eq.symm⟩
  texts := (c.text_withApiKey key₁).trans (c.text_withApiKey key₂).symm

/-- Two API keys that differ in the token secret, if at all, look the same, but they are printed in
the same way exactly if the secrets are the same: the description of the configuration tells them
apart. Whatever four parts credentials have, their description and that of a signature tell the two
keys and the realm, and neither the consumer secret nor the token secret. -/
theorem printedAlike_iff (realm : String) (c : Config) :
    LookAlike key₁ key₂ realm c ∧
    (PrintedAlike key₁ key₂ realm c ↔ secret₁ = secret₂) ∧
    (∀ a b : Credentials,
      a.describe = b.describe ↔ a.consumerKey = b.consumerKey ∧ a.tokenKey = b.tokenKey) ∧
    ∀ p q : Plaintext, p.describe = q.describe ↔
      p.credentials.consumerKey = q.credentials.consumerKey ∧
      p.credentials.tokenKey = q.credentials.tokenKey ∧ p.realm = q.realm := by
  have alike := first.lookAlike second realm c
  have told : (c.withApiKey key₁).describe = (c.withApiKey key₂).describe ↔ secret₁ = secret₂ :=
    Config.describe_withApiKey_eq_iff.trans (first.eq_iff second)
  refine ⟨alike, ⟨fun printed => told.mp printed.descriptions, fun same => ?_⟩,
    fun a b => Credentials.describe_eq_iff, fun p q => Plaintext.describe_eq_iff⟩
  exact { alike with descriptions := told.mpr same }

end Keys

/-- Two secrets with marks that are escaped where they are shown. -/
theorem printedAlike_iff_marks :
    IsKey "c:t:s\"" "c" "t" "s\"" ∧ IsKey "c:t:\\" "c" "t" "\\" ∧
      (∃ p q : Plaintext, p.IsFor "c:t:s\"" defaultRealm ∧ q.IsFor "c:t:\\" defaultRealm ∧
        p.describe = q.describe) ∧
      LookAlike "c:t:s\"" "c:t:\\" defaultRealm Config.default ∧
      ¬ PrintedAlike "c:t:s\"" "c:t:\\" defaultRealm Config.default := by
  have first : IsKey "c:t:s\"" "c" "t" "s\"" := ⟨rfl, by decide, by decide, by decide⟩
  have second : IsKey "c:t:\\" "c" "t" "\\" := ⟨rfl, by decide, by decide, by decide⟩
  obtain ⟨alike, told, -⟩ := printedAlike_iff first second defaultRealm Config.default
  have signed := alike.signatures ⟨_, _, _, first, by decide⟩ ⟨_, _, _, second, by decide⟩
  exact ⟨first, second, signed, alike, fun printed => absurd (told.mp printed) (by decide)⟩

/-- A configuration is described with its API key, so that keys with different token secrets are
not printed in the same way. -/
theorem not_printedAlike_default :
    IsKey "c:t:s" "c" "t" "s" ∧ IsKey "c:t:z" "c" "t" "z" ∧
      (Config.default.withApiKey "c:t:s").describe =
        "MaasClientConfig \x7b url: \"http://localhost:5240/MAAS/api/2.0/\", " ++
          "api_key: Some(\"c:t:s\"), tls_verify: true, tls_ca_cert: None, " ++
          "request_timeout_secs: 30 \x7d" ∧
      ¬ PrintedAlike "c:t:s" "c:t:z" defaultRealm Config.default := by
  refine ⟨⟨rfl, by decide, by decide, by decide⟩, ⟨rfl, by decide, by decide, by decide⟩,
    by decide +kernel, fun printed => ?_⟩
  exact absurd (Config.describe_withApiKey_eq_iff.mp printed.descriptions) (by decide)

end OAuth

end RegionApi
