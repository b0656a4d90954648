import RegionApi.Client.Setup
import RegionApi.Proofs.Client.Invocation
import RegionApi.Proofs.Except
import RegionApi.Proofs.Http.Message
import RegionApi.Proofs.OAuth.Header

/-!
# What authentication changes

The client for an API key is the client without one, with another signer. So the two make the same
requests, and `authentication_sets_authorization` says that the first one they send for a call
differs in its authorization alone: an authenticated client sends its signature, whatever a URL
brings along, and any other sends an authorization only if a URL does.
-/

namespace RegionApi.Client

section Clients

variable [HostNames]

/-! ## The two clients -/

/-- The client with another signer. -/
def withSigner (c : Client) (signer : Signer) : Client := { c with signer }

@[simp] theorem signer_withSigner (c : Client) (signer : Signer) :
    (c.withSigner signer).signer = signer := rfl

@[simp] theorem agent_withSigner (c : Client) (signer : Signer) :
    (c.withSigner signer).agent = c.agent := rfl

namespace Setup

theorem signer_of_ofBase {base : String} {s : Setup} (h : ofBase base = .ok s) :
    s.signer = .anonymous := by
  unfold ofBase at h
  split at h
  · cases h
    rfl
  · cases h

/-- A client is made of the choices if the certificate to trust can be used, and the name it goes
by can be sent. -/
theorem client_eq_ok_iff {s : Setup} {files : Files} {c : Client} :
    s.client files = .ok c ↔ s.checkTrust files = .ok () ∧
      Http.Header.isValue s.agent.name = true ∧ ⟨s.base, s.signer, s.agent, s.isRead⟩ = c := by
  unfold client
  rw [bind_eq_ok]
  constructor
  · rintro ⟨⟨⟩, trusted, h⟩
    split at h
    · rename_i named
      exact ⟨trusted, named, Except.ok.inj h⟩
    · cases h
  · rintro ⟨trusted, named, rfl⟩
    exact ⟨(), trusted, if_pos named⟩

/-- Another choice of signer makes the same client with that signer. -/
theorem client_withSigner {s : Setup} {files : Files} {c : Client} (h : s.client files = .ok c)
    (signer : Signer) : (s.withSigner signer).client files = .ok (c.withSigner signer) := by
  obtain ⟨trusted, named, rfl⟩ := client_eq_ok_iff.mp h
  exact client_eq_ok_iff.mpr ⟨trusted, named, rfl⟩

theorem signer_of_client {s : Setup} {files : Files} {c : Client} (h : s.client files = .ok c) :
    c.signer = s.signer := by
  obtain ⟨-, -, rfl⟩ := client_eq_ok_iff.mp h
  rfl

end Setup

/-- Where a client that does not sign can be made, so can one for an API key: the same client with
another signer. -/
theorem result_authenticated {files : Files} {base key : String} {p : OAuth.Plaintext}
    {a : Client} (accepted : OAuth.Plaintext.ofKey key = .ok p)
    (made : (anonymous files base).result = .ok a) :
    a.signer = .anonymous ∧
      (authenticated files base key).result = .ok (a.withSigner (.plaintext p)) := by
  unfold anonymous at made
  unfold authenticated
  cases chosen : Setup.ofBase base with
  | error e =>
      rw [chosen] at made
      cases made
  | ok s =>
      rw [chosen] at made
      constructor
      · rw [Setup.signer_of_client made, Setup.signer_of_ofBase chosen]
      · rw [accepted]
        exact Setup.client_withSigner made (.plaintext p)

/-! ## Where an authorization comes from -/

omit [HostNames] in
/-- A form brings no user name and no password. -/
theorem hasUserInfo_of_withForm {u : Url} {form : Form} (h : (withForm u form).HasUserInfo) :
    u.HasUserInfo := by
  rwa [Url.HasUserInfo, withForm, Url.authority_withQuery] at h

omit [HostNames] in
/-- A request that is made for a URL and has an authorization got it from the URL. -/
theorem hasUserInfo_of_prepare {method : Http.Method} {u : Url} {r : Http.Request}
    (h : prepare method u = .ok r)
    (authorized : Http.Headers.values r.headers "authorization" ≠ []) : u.HasUserInfo := by
  unfold prepare at h
  split at h
  · rename_i prepared
    cases h
    apply (Http.prepared_of_prepare prepared).hasUserInfo
    intro none
    rw [none] at authorized
    exact authorized rfl
  · cases h

omit [HostNames] in
theorem hasUserInfo_of_prepareForm {method : Http.Method} {u : Url} {form : Form}
    {r : Http.Request} (h : prepareForm method u form = .ok r)
    (authorized : Http.Headers.values r.headers "authorization" ≠ []) : u.HasUserInfo := by
  obtain ⟨r', prepared, h⟩ := bind_eq_ok.mp h
  cases h
  apply hasUserInfo_of_prepare prepared
  change Http.Headers.values (r'.headers.append _) _ ≠ [] at authorized
  rwa [Http.Headers.values_append, if_neg (by decide), List.append_nil] at authorized

namespace Invocation

/-- A request that has an authorization before it is signed got it from the URL of the resource. -/
theorem hasUserInfo_of_request {v : Invocation} {c : Client} {r : Http.Request}
    (h : v.request c = .ok r)
    (authorized : Http.Headers.values r.headers "authorization" ≠ []) :
    ∃ u, c.locate v.resource = .ok u ∧ u.HasUserInfo := by
  cases v with
  | get resource operation form =>
      change c.getRequest resource operation form = .ok r at h
      unfold getRequest at h
      split at h
      · cases h
      · obtain ⟨u, located, h⟩ := bind_eq_ok.mp h
        exact ⟨u, located, hasUserInfo_of_withForm (hasUserInfo_of_prepare h authorized)⟩
  | post resource operation form =>
      obtain ⟨u, located, h⟩ := bind_eq_ok.mp h
      exact ⟨u, located, hasUserInfo_of_withForm (hasUserInfo_of_prepareForm h authorized)⟩
  | put resource form =>
      obtain ⟨u, located, h⟩ := bind_eq_ok.mp h
      exact ⟨u, located, hasUserInfo_of_prepareForm h authorized⟩
  | delete resource =>
      obtain ⟨u, located, h⟩ := bind_eq_ok.mp h
      obtain ⟨r', prepared, h⟩ := bind_eq_ok.mp h
      cases h
      exact ⟨u, located, hasUserInfo_of_prepare prepared authorized⟩

theorem request_withSigner (v : Invocation) (c : Client) (signer : Signer) :
    v.request (c.withSigner signer) = v.request c := by
  cases v <;> rfl

theorem signed_anonymous {c : Client} (unsigned : c.signer = .anonymous) (v : Invocation) :
    v.signed c = v.request c := by
  rw [signed, unsigned]
  cases v.request c <;> rfl

theorem signed_plaintext {v : Invocation} {c : Client} {r : Http.Request}
    (made : v.request c = .ok r) (p : OAuth.Plaintext) :
    v.signed (c.withSigner (.plaintext p)) =
      .ok (r.setHeader ⟨"authorization", p.authorization, true⟩) := by
  rw [signed, request_withSigner, made, ok_bind, signer_withSigner, Signer.sign_plaintext]

end Invocation

/-! ## First requests -/

/-- The client for an API key sends first what the client without one does, the signature for the
key being the one authorization; that client sends an authorization only if the URL of the resource
has a user name or a password. -/
theorem authentication_sets_authorization {files : Files} {base key : String} {a : Client}
    (wellFormed : OAuth.IsWellFormedKey key) (made : (anonymous files base).result = .ok a) :
    ∃ p b, OAuth.Plaintext.IsFor p key "MAAS API" ∧
      (authenticated files base key).result = .ok b ∧
      ∀ (v : Invocation) (net : Http.Network) (s : Http.Sent),
        (v.call a net).sent.head? = some s →
        (∃ t, (v.call b net).sent.head? = some t ∧
          Http.Headers.values t.headers "authorization" = [p.authorization] ∧
          t.method = s.method ∧ t.url = s.url ∧ t.body = s.body ∧
          Http.Headers.erase t.headers "authorization" =
            Http.Headers.erase s.headers "authorization") ∧
        (Http.Headers.values s.headers "authorization" ≠ [] →
          ∃ u, a.locate v.resource = .ok u ∧ u.HasUserInfo) := by
  obtain ⟨p, isFor⟩ := OAuth.Plaintext.exists_isFor wellFormed "MAAS API"
  obtain ⟨unsigned, authenticated⟩ := result_authenticated isFor.ofKey_eq made
  have foreign : "authorization" ∉ ["accept", "user-agent", "accept-encoding"] := by decide
  refine ⟨p, _, isFor, authenticated, ?_⟩
  intro v net s first
  obtain ⟨r, signs, goes, rfl⟩ := Invocation.head?_sent_call_eq_some_iff.mp first
  rw [Invocation.signed_anonymous unsigned] at signs
  refine ⟨?_, fun authorized => ?_⟩
  · have signs' := Invocation.signed_plaintext signs p
    have first' := Invocation.head?_sent_call_eq_some_iff.mpr ⟨_, signs', goes, rfl⟩
    refine ⟨_, first', ?_, ?_, ?_, ?_, ?_⟩
    · rw [Http.headers_sent_start, Http.Agent.values_complete foreign,
        Http.Request.headers_setHeader, Http.Headers.values_set, if_pos rfl]
    · rw [Http.method_sent_start, Http.method_sent_start, Http.Request.method_setHeader]
    · rw [Http.url_sent_start, Http.url_sent_start, Http.Request.url_setHeader]
    · rw [Http.body_sent_start, Http.body_sent_start, Http.Request.body_setHeader]
    · rw [Http.headers_sent_start, Http.headers_sent_start, Http.Request.headers_setHeader,
        agent_withSigner]
      exact Http.Agent.erase_complete_set foreign r.headers
  · rw [Http.headers_sent_start, Http.Agent.values_complete foreign] at authorized
    exact Invocation.hasUserInfo_of_request signs authorized

end Clients

/-- A client whose base address has a user name and a password. -/
def guarded : Client where
  base := ⟨"http", some ⟨"u", some "p", .name "localhost", none⟩, .segments [""], none, none⟩
  signer := .anonymous
  agent := ⟨Setup.defaultAgent, true⟩
  isRead := ⟨"http://u:p@localhost/", by rfl⟩

/-- The authorization that a base address brings along gives way to a signature. -/
theorem authentication_sets_authorization_guarded :
    ∃ p b s t, OAuth.IsWellFormedKey "c:t:s" ∧ OAuth.Plaintext.IsFor p "c:t:s" "MAAS API" ∧
      (anonymous (fun _ => .error .missing) "http://u:p@localhost/").result = .ok guarded ∧
      (authenticated (fun _ => .error .missing) "http://u:p@localhost/" "c:t:s").result = .ok b ∧
      ((Invocation.get "m" "" .empty).call guarded (.plain [])).sent.head? = some s ∧
      Http.Headers.values s.headers "authorization" = ["Basic dTpw"] ∧
      ((Invocation.get "m" "" .empty).call b (.plain [])).sent.head? = some t ∧
      Http.Headers.values t.headers "authorization" = [p.authorization] ∧ t.url = s.url ∧
      ∃ u, guarded.locate "m" = .ok u ∧ u.HasUserInfo := by
  have wellFormed : OAuth.IsWellFormedKey "c:t:s" :=
    ⟨"c", "t", "s", ⟨by decide, by decide, by decide, by decide⟩, by decide⟩
  have made : (anonymous (fun _ => .error .missing) "http://u:p@localhost/").result =
      .ok guarded := by rfl
  obtain ⟨s, first, basic⟩ : ∃ s,
      ((Invocation.get "m" "" .empty).call guarded (.plain [])).sent.head? = some s ∧
      Http.Headers.values s.headers "authorization" = ["Basic dTpw"] := ⟨_, by rfl, by rfl⟩
  have authorized : Http.Headers.values s.headers "authorization" ≠ [] := by
    rw [basic]
    exact List.cons_ne_nil _ _
  obtain ⟨p, b, isFor, authenticated, calls⟩ := authentication_sets_authorization wellFormed made
  obtain ⟨⟨t, first', values, -, url, -⟩, brought⟩ := calls _ _ s first
  exact ⟨p, b, s, t, wellFormed, isFor, made, authenticated, first, basic, first', values, url,
    brought authorized⟩

end RegionApi.Client
