import RegionApi.Proofs.Text.Percent
import RegionApi.Signer

/-!
# The authorization header of a plaintext signature

Whatever credentials and realm are made of, the header is written in printable characters of ASCII
(`isPrintable_of_mem_authorization`). So it may always stand in a request, and signing never fails
(`sign_plaintext`).
-/

namespace RegionApi

namespace OAuth.Plaintext

/-- The characters a header field is made of. -/
def isPrintable (c : Char) : Bool := 0x20 ≤ c.toNat && c.toNat < 0x7f

theorem isPrintable_of_mem_encode {s : String} :
    ∀ c ∈ (Text.Percent.encode kept s).toList, isPrintable c = true := by
  rw [Text.Percent.encode, String.toList_ofList]
  refine Text.Percent.forall_mem_encodeChars ?_ (by decide) (by decide) s.toList
  intro c hc
  simp only [kept, Bool.or_eq_true, decide_eq_true_eq] at hc
  rcases hc with (((hc | rfl) | rfl) | rfl) | rfl
  · have bounds := Text.Percent.toNat_bounds_of_isAlphanum hc
    simp only [isPrintable, Bool.and_eq_true, decide_eq_true_eq]
    omega
  all_goals decide

/-- The value of a field is printable whatever it is, so the name decides. -/
theorem isPrintable_of_mem_field {f : String × String}
    (name : f.1.toList.all isPrintable = true) : ∀ c ∈ (field f).toList, isPrintable c = true := by
  have opened : "=\"".toList.all isPrintable = true := by decide
  have closed : "\"".toList.all isPrintable = true := by decide
  intro c hc
  simp only [field, String.toList_append, List.mem_append] at hc
  rcases hc with ((hc | hc) | hc) | hc
  · exact List.all_eq_true.mp name c hc
  · exact List.all_eq_true.mp opened c hc
  · exact isPrintable_of_mem_encode c hc
  · exact List.all_eq_true.mp closed c hc

theorem fields_map_fst (p : Plaintext) :
    p.fields.map Prod.fst = ["oauth_consumer_key", "oauth_token", "oauth_signature_method",
      "oauth_signature", "oauth_version", "realm"] := rfl

theorem isPrintable_of_mem_authorization (p : Plaintext) :
    ∀ c ∈ p.authorization.toList, isPrintable c = true := by
  have scheme : "OAuth ".toList.all isPrintable = true := by decide
  have separator : ", ".toList.all isPrintable = true := by decide
  have names : (p.fields.map Prod.fst).all (fun name => name.toList.all isPrintable) = true := by
    rw [fields_map_fst]
    decide
  intro c hc
  rw [authorization, String.toList_append, List.mem_append, String.toList_intercalate] at hc
  rcases hc with hc | hc
  · exact List.all_eq_true.mp scheme c hc
  · rcases Text.mem_intercalate hc with hc | ⟨part, hpart, hc⟩
    · exact List.all_eq_true.mp separator c hc
    · rw [List.map_map] at hpart
      obtain ⟨f, hf, rfl⟩ := List.mem_map.mp hpart
      have name := List.all_eq_true.mp names f.1 (List.mem_map_of_mem hf)
      exact isPrintable_of_mem_field name c hc

/-- A signature may always stand in a header. -/
theorem isValue_authorization (p : Plaintext) : Http.Header.isValue p.authorization = true := by
  apply List.all_eq_true.mpr
  intro c hc
  have printable := isPrintable_of_mem_authorization p c hc
  simp only [isPrintable, Bool.and_eq_true, decide_eq_true_eq] at printable
  simp only [Bool.or_eq_true, Bool.and_eq_true, decide_eq_true_eq]
  exact .inr ⟨printable.1, Nat.ne_of_lt printable.2⟩

end OAuth.Plaintext

/-- Signing with a plaintext signature never fails, and sets the authorization header alone. -/
theorem Signer.sign_plaintext (p : OAuth.Plaintext) (r : Http.Request) :
    (plaintext p).sign r = .ok (r.setHeader ⟨"authorization", p.authorization, true⟩) := by
  simp only [plaintext, Http.Header.ofValue, p.isValue_authorization, if_true]
  rfl

end RegionApi
