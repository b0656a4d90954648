import RegionApi.OAuth.Plaintext
import RegionApi.Proofs.Except
import RegionApi.Proofs.Text.Split

/-!
# API keys

An API key is three fields with a colon between each two and none within (`IsKey`), and these are
the credentials it stands for (`ofKey_eq_ok_iff`). So a key can be told from its credentials, and a
signature is made for exactly the keys whose fields are not empty (`Plaintext.exists_ofKey_iff`).
-/

namespace RegionApi.OAuth

/-- Whether a text is three fields with colons between them. -/
structure IsKey (key consumerKey tokenKey tokenSecret : String) : Prop where
  text : key = consumerKey ++ ":" ++ tokenKey ++ ":" ++ tokenSecret
  consumerKey : ':' ∉ consumerKey.toList
  tokenKey : ':' ∉ tokenKey.toList
  tokenSecret : ':' ∉ tokenSecret.toList

/-- Whether a text is an API key: exactly two colons separate three fields, none of them empty. -/
def IsWellFormedKey (key : String) : Prop :=
  ∃ consumerKey tokenKey tokenSecret, IsKey key consumerKey tokenKey tokenSecret ∧
    consumerKey ≠ "" ∧ tokenKey ≠ "" ∧ tokenSecret ≠ ""

namespace Credentials

/-- The fields of three are the ones that colons separate. -/
theorem keyFields_eq_iff {key a b c : String} : keyFields key = [a, b, c] ↔ IsKey key a b c := by
  have joined : [':'].intercalate [a.toList, b.toList, c.toList] =
      (a ++ ":" ++ b ++ ":" ++ c).toList := by
    simp [List.intercalate]
  constructor
  · intro fields
    have split : List.splitOn ':' key.toList = [a.toList, b.toList, c.toList] := by
      have parts := congrArg (List.map String.toList) fields
      simpa [keyFields, Function.comp_def] using parts
    have within {s : String} (hs : s.toList ∈ [a.toList, b.toList, c.toList]) :
        ':' ∉ s.toList := Text.notMem_of_mem_splitOn (split ▸ hs)
    refine ⟨String.toList_inj.mp ?_, within (by simp), within (by simp), within (by simp)⟩
    rw [← joined, ← split, List.intercalate_splitOn]
  · rintro ⟨rfl, ha, hb, hc⟩
    have split : List.splitOn ':' (a ++ ":" ++ b ++ ":" ++ c).toList =
        [a.toList, b.toList, c.toList] := by
      rw [← joined]
      refine List.splitOn_intercalate ':' ?_ (List.cons_ne_nil _ _)
      simp [ha, hb, hc]
    rw [keyFields, split]
    simp

/-- A key stands for the credentials that its fields are; the consumer secret is empty. -/
theorem ofKey_eq_ok_iff {key : String} {c : Credentials} :
    ofKey key = .ok c ↔
      IsKey key c.consumerKey c.tokenKey c.tokenSecret ∧ c.consumerSecret = "" := by
  rw [← keyFields_eq_iff, ofKey]
  constructor
  · intro h
    split at h
    · rename_i fields
      cases h
      exact ⟨fields, rfl⟩
    · cases h
  · rintro ⟨fields, secret⟩
    rw [fields]
    cases c
    cases secret
    rfl

/-- Keys with the same credentials are the same. -/
theorem key_eq_of_ofKey_eq_ok {key₁ key₂ : String} {c : Credentials} (h₁ : ofKey key₁ = .ok c)
    (h₂ : ofKey key₂ = .ok c) : key₁ = key₂ := by
  rw [(ofKey_eq_ok_iff.mp h₁).1.text, (ofKey_eq_ok_iff.mp h₂).1.text]

end Credentials

section Fields

variable {key key₁ key₂ consumerKey tokenKey tokenSecret secret₁ secret₂ : String}

/-- The credentials that the fields of a key make. -/
theorem IsKey.ofKey_eq (isKey : IsKey key consumerKey tokenKey tokenSecret) :
    Credentials.ofKey key = .ok ⟨consumerKey, "", tokenKey, tokenSecret⟩ :=
  Credentials.ofKey_eq_ok_iff.mpr ⟨isKey, rfl⟩

/-- Keys that have the consumer key and the token key in common are the same exactly if they have
the token secret in common too. -/
theorem IsKey.eq_iff (first : IsKey key₁ consumerKey tokenKey secret₁)
    (second : IsKey key₂ consumerKey tokenKey secret₂) : key₁ = key₂ ↔ secret₁ = secret₂ := by
  rw [first.text, second.text, String.append_right_inj]

end Fields

namespace Plaintext

/-- A signature is made of exactly the credentials that are complete. -/
theorem ofCredentials_eq_ok_iff {c : Credentials} {realm : String} {p : Plaintext} :
    ofCredentials c realm = .ok p ↔ p.credentials = c ∧ p.realm = realm := by
  unfold ofCredentials
  constructor
  · intro h
    split at h
    · cases h
    · cases h
      exact ⟨rfl, rfl⟩
  · rintro ⟨rfl, rfl⟩
    have whole := p.credentials.missing?_eq_none_iff.mpr p.complete
    split
    · rename_i part missing
      rw [whole] at missing
      cases missing
    · rfl

/-- A signature is made for exactly the keys whose three fields are not empty. -/
theorem exists_ofKey_iff {key : String} : (∃ p, ofKey key = .ok p) ↔ IsWellFormedKey key := by
  constructor
  · rintro ⟨p, made⟩
    obtain ⟨c, read, made⟩ := bind_eq_ok.mp made
    obtain ⟨rfl, -⟩ := ofCredentials_eq_ok_iff.mp made
    exact ⟨_, _, _, (Credentials.ofKey_eq_ok_iff.mp read).1, p.complete⟩
  · rintro ⟨a, b, c, isKey, complete⟩
    exact ⟨⟨⟨a, "", b, c⟩, defaultRealm, complete⟩,
      bind_eq_ok.mpr ⟨_, isKey.ofKey_eq, ofCredentials_eq_ok_iff.mpr ⟨rfl, rfl⟩⟩⟩

/-- Any other text is told to be no proper argument. -/
theorem exists_ofKey_eq_error {key : String} (malformed : ¬ IsWellFormedKey key) :
    ∃ text, ofKey key = .error (.invalidArgument text) := by
  cases made : ofKey key with
  | ok p => exact absurd (exists_ofKey_iff.mp ⟨p, made⟩) malformed
  | error e =>
      cases read : Credentials.ofKey key with
      | error f =>
          rw [ofKey, read] at made
          cases made
          unfold Credentials.ofKey at read
          split at read
          · cases read
          · cases read
            exact ⟨_, rfl⟩
      | ok c =>
          rw [ofKey, read, ok_bind] at made
          unfold ofCredentials at made
          split at made
          · cases made
            exact ⟨_, rfl⟩
          · cases made

end Plaintext

end RegionApi.OAuth
