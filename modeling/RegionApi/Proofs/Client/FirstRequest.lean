import RegionApi.Client
import RegionApi.Proofs.Http.Exchange
import RegionApi.Proofs.Http.Message
import RegionApi.Proofs.Url.Resolve

/-!
# The first request of a call

A call that makes a request sends it first, as the signer leaves it. Whether it is sent at all is up
to the signer, the wire and the network (`makes_of_withoutUserInfo_eq`); what it is like is told by
the signed request (`exists_signed_of_head?_sent`).
-/

namespace RegionApi

/-! ## Signers -/

/-- Whether a signer leaves a part of every request it signs as it was. -/
def Signer.Keeps {α : Type} (s : Signer) (part : Http.Request → α) : Prop :=
  ∀ r signed, s.sign r = .ok signed → part signed = part r

theorem Signer.keeps_anonymous {α : Type} (part : Http.Request → α) :
    anonymous.Keeps part := by
  rintro r signed ⟨⟩
  rfl

/-! ## URLs on the wire -/

namespace Url

@[simp] theorem host?_withoutUserInfo (u : Url) : u.withoutUserInfo.host? = u.host? := by
  unfold host? withoutUserInfo
  cases u.authority <;> rfl

@[simp] theorem port?_withoutUserInfo (u : Url) : u.withoutUserInfo.port? = u.port? := by
  unfold port? withoutUserInfo
  cases u.authority <;> rfl

theorem IsRegular.of_eq {u v : Url} (h : u.IsRegular) (scheme : v.scheme = u.scheme)
    (path : v.path = u.path) (host : v.host? = u.host?) : v.IsRegular := by
  refine ⟨fun special => ?_, fun special notFile => ?_⟩
  · rw [path]
    exact h.path (scheme ▸ special)
  · rw [host]
    exact h.host (scheme ▸ special) (scheme ▸ notFile)

/-- User name and password do not make a URL irregular. -/
theorem IsRegular.of_withoutUserInfo_eq {u v : Url} (h : u.IsRegular)
    (eq : v.withoutUserInfo = u.withoutUserInfo) : v.IsRegular := by
  have scheme : v.withoutUserInfo.scheme = u.withoutUserInfo.scheme := by rw [eq]
  have path : v.withoutUserInfo.path = u.withoutUserInfo.path := by rw [eq]
  have host : v.host? = u.host? := by
    rw [← host?_withoutUserInfo v, eq, host?_withoutUserInfo]
  exact h.of_eq scheme path host

theorem isHttp_eq_of_withoutUserInfo_eq {u v : Url}
    (eq : v.withoutUserInfo = u.withoutUserInfo) : v.isHttp = u.isHttp := by
  have scheme : v.withoutUserInfo.scheme = u.withoutUserInfo.scheme := by rw [eq]
  change v.scheme = u.scheme at scheme
  rw [isHttp, isHttp, scheme]

/-- Whether a URL leads to the same place as another: scheme, host, port and path are the same. -/
structure IsAt (v u : Url) : Prop where
  scheme : v.scheme = u.scheme
  host : v.host? = u.host?
  port : v.port? = u.port?
  path : v.path = u.path

/-- On the wire a URL has no user name, password or fragment, and leads to the same place. -/
theorem isAt_withoutUserInfo_withoutFragment (u : Url) :
    u.withoutUserInfo.withoutFragment.IsAt u :=
  ⟨rfl, host?_withoutUserInfo u, port?_withoutUserInfo u, rfl⟩

/-- Whether a URL is short enough for the wire, and its host free of what may not be there. -/
def FitsWire (u : Url) : Prop :=
  u.chars.length ≤ Http.longestUrl ∧ ∀ h, u.host? = some h → h.text.any Http.offWire = false

/-- A regular URL of the web is carried if it fits on the wire and the network gets to it. -/
theorem carries_iff {u : Url} (regular : u.IsRegular) (http : u.isHttp = true)
    (net : Http.Network) : net.carries u = true ↔ u.FitsWire ∧ net.reaches u = true := by
  obtain ⟨special, notFile⟩ := isSpecial_of_isHttp http
  obtain ⟨host, named⟩ := regular.host special notFile
  simp [Http.Network.carries, Http.isSendable, Http.isUri_of_isHttp http named, FitsWire, http,
    named]

end Url

namespace Client

section Sending

variable [HostNames]

/-! ## Resources -/

theorem isRegular_base (c : Client) : c.base.IsRegular := by
  obtain ⟨address, read⟩ := c.isRead
  exact Url.isRegular_of_parse read

/-- What a resource is located at is regular, as the base address is. -/
theorem isRegular_of_locate {c : Client} {resource : String} {u : Url}
    (h : c.locate resource = .ok u) : u.IsRegular := by
  unfold locate at h
  split at h
  · rename_i joined
    cases h
    exact c.isRegular_base.join joined
  · cases h

/-! ## Sending -/

/-- A call sends first what its signer made of its request. -/
theorem head?_sent_dispatch (c : Client) (net : Http.Network) (r : Http.Request) :
    (c.dispatch net r).sent.head? =
      match c.signer.sign r with
      | .error _ => none
      | .ok signed =>
        if net.carries signed.url then some (Http.Hop.start c.agent signed).sent else none := by
  unfold dispatch
  cases c.signer.sign r with
  | error e => rfl
  | ok signed => exact Http.Exchange.head?_sent_run c.agent net signed

theorem exists_signed_of_head?_sent {c : Client} {net : Http.Network} {r : Http.Request}
    {s : Http.Sent} (h : (c.dispatch net r).sent.head? = some s) :
    ∃ signed, c.signer.sign r = .ok signed ∧ s = (Http.Hop.start c.agent signed).sent := by
  rw [head?_sent_dispatch] at h
  split at h
  · cases h
  · rename_i signed signs
    split at h
    · exact ⟨signed, signs, (Option.some.inj h).symm⟩
    · cases h

section First

variable {c : Client} {net : Http.Network} {r : Http.Request} {s : Http.Sent}

/-- The method of the first request is that of the request made, unless the signer changes it. -/
theorem method_of_head?_sent (first : (c.dispatch net r).sent.head? = some s)
    (keeps : c.signer.Keeps Http.Request.method) : s.method = r.method := by
  obtain ⟨signed, signs, rfl⟩ := exists_signed_of_head?_sent first
  exact keeps r signed signs

theorem url_of_head?_sent (first : (c.dispatch net r).sent.head? = some s)
    (keeps : c.signer.Keeps Http.Request.url) :
    s.url = r.url.withoutUserInfo.withoutFragment := by
  obtain ⟨signed, signs, rfl⟩ := exists_signed_of_head?_sent first
  rw [Http.url_sent_start, keeps r signed signs]

theorem body_of_head?_sent (first : (c.dispatch net r).sent.head? = some s)
    (keeps : c.signer.Keeps Http.Request.body) : s.body = r.body.getD [] := by
  obtain ⟨signed, signs, rfl⟩ := exists_signed_of_head?_sent first
  rw [Http.body_sent_start, keeps r signed signs]

/-- The first request has the values of the request made for a name that neither the signer nor the
agent has a say in. -/
theorem values_of_head?_sent (first : (c.dispatch net r).sent.head? = some s) {name : String}
    (keeps : c.signer.Keeps fun r => Http.Headers.values r.headers name)
    (foreign : name ∉ ["accept", "user-agent", "accept-encoding"]) :
    Http.Headers.values s.headers name = Http.Headers.values r.headers name := by
  obtain ⟨signed, signs, rfl⟩ := exists_signed_of_head?_sent first
  rw [Http.headers_sent_start, Http.Agent.values_complete foreign]
  exact keeps r signed signs

/-- A request is sent if the signer takes it, it fits on the wire and the network gets to its
server. -/
theorem sent_dispatch_ne_nil_iff (keeps : c.signer.Keeps Http.Request.url)
    (regular : r.url.IsRegular) (http : r.url.isHttp = true) :
    (c.dispatch net r).sent ≠ [] ↔
      (∃ signed, c.signer.sign r = .ok signed) ∧ r.url.FitsWire ∧ net.reaches r.url = true := by
  rw [← Url.carries_iff regular http, ← List.isSome_head?, head?_sent_dispatch]
  cases signs : c.signer.sign r with
  | error e => simp
  | ok signed =>
      have url : signed.url = r.url := keeps r signed signs
      cases carried : net.carries r.url <;> simp [url, carried]

/-- What the first request has of the request made: the method, the place and the query. -/
theorem shape_of_head?_sent {made : Except Error Http.Request} {u : Url} (eq : made = .ok r)
    (url : r.url.withoutUserInfo = u.withoutUserInfo)
    (first : (c.issue net made).sent.head? = some s)
    (keeps : c.signer.Keeps Http.Request.url) :
    (c.dispatch net r).sent.head? = some s ∧
      (c.signer.Keeps Http.Request.method → s.method = r.method) ∧
      s.url.IsAt u ∧ s.url.query = u.query := by
  rw [eq, issue_ok] at first
  rw [url_of_head?_sent first keeps, url]
  exact ⟨first, method_of_head?_sent first, u.isAt_withoutUserInfo_withoutFragment, rfl⟩

end First

/-- Whether a call makes a request, and sends one exactly if the signer takes it, it fits on the
wire and the network gets to its server. -/
def Makes {α : Type} (c : Client) (net : Http.Network) (made : Except Error Http.Request)
    (call : Call α) : Prop :=
  ∃ r, made = .ok r ∧
    (call.sent ≠ [] ↔
      (∃ signed, c.signer.sign r = .ok signed) ∧ r.url.FitsWire ∧ net.reaches r.url = true)

/-- A request for a regular URL of the web is sent if nothing stands in its way. -/
theorem makes_of_withoutUserInfo_eq {c : Client} {made : Except Error Http.Request}
    {r : Http.Request} {u : Url} (net : Http.Network) (keeps : c.signer.Keeps Http.Request.url)
    (regular : u.IsRegular) (http : u.isHttp = true) (eq : made = .ok r)
    (url : r.url.withoutUserInfo = u.withoutUserInfo) : c.Makes net made (c.issue net made) := by
  have web : r.url.isHttp = true := by
    rw [Url.isHttp_eq_of_withoutUserInfo_eq url, http]
  refine ⟨r, eq, ?_⟩
  rw [eq, issue_ok]
  exact sent_dispatch_ne_nil_iff keeps (regular.of_withoutUserInfo_eq url) web

end Sending

/-- A client for the machine it runs on, which does not sign. -/
def loopback : Client where
  base := ⟨"http", some ⟨"", none, .name "localhost", none⟩, .segments [""], none, none⟩
  signer := .anonymous
  agent := ⟨"client", false⟩
  isRead := ⟨"http://localhost/", by rfl⟩

end Client

end RegionApi
