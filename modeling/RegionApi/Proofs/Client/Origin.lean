import RegionApi.Proofs.Client.FirstRequest
import RegionApi.Proofs.Client.Refusal
import RegionApi.Proofs.Url.Relative

/-!
# Relative resources stay at their server

A client for the web resolves every relative resource, and what it reaches has scheme, user
information, host and port of the base address and a path without dot segments
(`relative_stays_at_base`). So whatever a resource is made of, it does not take a call elsewhere.
-/

namespace RegionApi.Client

namespace Invocation

theorem scheme_address (v : Invocation) (u : Url) : (v.address u).scheme = u.scheme := by
  cases v with
  | get resource operation form => exact Url.scheme_withQuery u _
  | post resource operation form => exact Url.scheme_withQuery u _
  | put resource form => rfl
  | delete resource => rfl

theorem authority_address (v : Invocation) (u : Url) : (v.address u).authority = u.authority := by
  cases v with
  | get resource operation form => exact Url.authority_withQuery u _
  | post resource operation form => exact Url.authority_withQuery u _
  | put resource form => rfl
  | delete resource => rfl

theorem isRegular_address {u : Url} (regular : u.IsRegular) (http : u.isHttp = true)
    (v : Invocation) : (v.address u).IsRegular ∧ (v.address u).isHttp = true := by
  cases v with
  | get resource operation form => exact isRegular_withForm regular http _
  | post resource operation form => exact isRegular_withForm regular http _
  | put resource form => exact ⟨regular, http⟩
  | delete resource => exact ⟨regular, http⟩

/-- The first request of a call is for the URL that the call makes of the one its resource is
located at, unless the signer changes it. -/
theorem url_of_head?_sent_call [HostNames] {v : Invocation} {c : Client} {net : Http.Network}
    {u : Url} {s : Http.Sent} (located : c.base.join v.resource = .ok u) (named : u.host? ≠ none)
    (keeps : c.signer.Keeps Http.Request.url) (first : (v.call c net).sent.head? = some s) :
    s.url = (v.address u).withoutUserInfo.withoutFragment := by
  obtain ⟨own, signs, -, rfl⟩ := head?_sent_call_eq_some_iff.mp first
  obtain ⟨r, made, signs⟩ := bind_eq_ok.mp signs
  have free : v.namesOperation = false := by
    refine Bool.eq_false_iff.mpr fun names => ?_
    rw [request_of_namesOperation names] at made
    cases made
  obtain ⟨r', made', url⟩ := exists_request_of_host free located named
  cases made.symm.trans made'
  rw [Http.url_sent_start, keeps r own signs, url]

end Invocation

/-- A client for the web has a base address with a tidy path. -/
theorem isTidy_base [HostNames] {c : Client} (http : c.base.isHttp = true) :
    c.base.path.IsTidy := by
  obtain ⟨address, read⟩ := c.isRead
  obtain ⟨special, notFile⟩ := Url.isSpecial_of_isHttp http
  exact Url.isTidy_of_parse read special notFile

/-- A resource that begins neither with a scheme nor with two slashes is always located, and that at
the scheme, user information, host and port of the base address; its path begins with a slash and
has no dot segment in any spelling. So a call for it sends its first request to the server of the
base address, whatever the signer adds. -/
theorem relative_stays_at_base [HostNames] (c : Client) (http : c.base.isHttp = true)
    (resource : String) (schemeless : ¬ Url.HasScheme (Url.cleaned resource))
    (single : ¬ Url.HasTwoSlashes (Url.cleaned resource)) :
    (∃ u, c.locate resource = .ok u ∧
      u.scheme = c.base.scheme ∧ u.authority = c.base.authority ∧
      u.path.text.head? = some '/' ∧
      ∀ part ∈ List.splitOn '/' u.path.text, ¬ Url.Path.IsDots (String.ofList part)) ∧
    ∀ (v : Invocation) (net : Http.Network) (s : Http.Sent), v.resource = resource →
      c.signer.Keeps Http.Request.url → (v.call c net).sent.head? = some s →
      s.url.scheme = c.base.scheme ∧ s.url.host? = c.base.host? ∧ s.url.port? = c.base.port? := by
  obtain ⟨u, located, within⟩ :=
    Url.exists_join_of_relative http (isTidy_base http) schemeless single
  refine ⟨⟨u, Invocation.locate_of_join_eq_ok located, within.scheme, within.authority,
    within.path.head?_text, within.path.not_isDots⟩, ?_⟩
  rintro v net s rfl keeps first
  have host : u.host? = c.base.host? := by
    rw [Url.host?, within.authority, Url.host?]
  have port : u.port? = c.base.port? := by
    rw [Url.port?, within.authority, Url.port?]
  obtain ⟨special, notFile⟩ := Url.isSpecial_of_isHttp http
  obtain ⟨name, named⟩ := c.isRegular_base.host special notFile
  have url := Invocation.url_of_head?_sent_call located (by rw [host, named]; simp) keeps first
  have isAt := (v.address u).isAt_withoutUserInfo_withoutFragment
  rw [← url] at isAt
  refine ⟨?_, ?_, ?_⟩
  · rw [isAt.scheme, v.scheme_address, within.scheme]
  · rw [isAt.host, v.host?_address, host]
  · rw [isAt.port, Url.port?, v.authority_address, ← port, Url.port?]

/-- Dot segments in several spellings, slashes of both kinds, and more of them behind a question
mark and a hash, against a base address with a password. -/
theorem relative_stays_at_base_guarded :
    ∃ u s, guarded.locate "\t/../a/.%2E/..\\%2e/x?//e#//f" = .ok u ∧
      u.text = "http://u:p@localhost/x?//e#//f" ∧ u.authority = guarded.base.authority ∧
      (∀ part ∈ List.splitOn '/' u.path.text, ¬ Url.Path.IsDots (String.ofList part)) ∧
      ((Invocation.delete "\t/../a/.%2E/..\\%2e/x?//e#//f").call guarded
        (.plain [])).sent.head? = some s ∧
      Http.Headers.values s.headers "authorization" = ["Basic dTpw"] ∧
      s.url.host? = guarded.base.host? := by
  have cleaned : Url.cleaned "\t/../a/.%2E/..\\%2e/x?//e#//f" =
      "/../a/.%2E/..\\%2e/x?//e#//f".toList := by decide +kernel
  have text : (guarded.locate "\t/../a/.%2E/..\\%2e/x?//e#//f").map Url.text =
      .ok "http://u:p@localhost/x?//e#//f" := by decide +kernel
  have sent : ((Invocation.delete "\t/../a/.%2E/..\\%2e/x?//e#//f").call guarded
      (.plain [])).sent.head?.map (fun s => Http.Headers.values s.headers "authorization") =
      some ["Basic dTpw"] := by decide +kernel
  have schemeless : ¬ Url.HasScheme (Url.cleaned "\t/../a/.%2E/..\\%2e/x?//e#//f") :=
    Url.splitScheme?_eq_none_iff.mp (by rw [cleaned]; decide)
  have single : ¬ Url.HasTwoSlashes (Url.cleaned "\t/../a/.%2E/..\\%2e/x?//e#//f") := by
    rw [cleaned]
    rintro ⟨a, b, rest, chars, -, slash⟩
    rw [← (List.cons.inj (List.cons.inj chars).2).1] at slash
    cases slash
  obtain ⟨⟨u, located, -, authority, -, dots⟩, calls⟩ :=
    relative_stays_at_base guarded (by decide) _ schemeless single
  obtain ⟨s, first, basic⟩ := Option.map_eq_some_iff.mp sent
  rw [located] at text
  exact ⟨u, s, located, Except.ok.inj text, authority, dots, first, basic,
    (calls _ _ _ rfl (Signer.keeps_anonymous _) first).2.1⟩

end RegionApi.Client
