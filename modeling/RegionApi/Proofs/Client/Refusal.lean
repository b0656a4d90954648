import RegionApi.Proofs.Client.Authentication
import RegionApi.Proofs.Client.Contents

/-!
# Calls that are refused

A call checks its arguments, locates the resource, makes a request for it and signs it, and the
first of these steps that fails decides what the caller is told (`signed_eq_error_iff`). None of
them touches the network: `checksBeforeSending` says that a call refused for its arguments or for
its resource has sent and reported nothing, and that a call which has sent something is told by what
the network did.
-/

namespace RegionApi.Client

section Calls

variable [HostNames]

/-! ## The steps of a call -/

omit [HostNames] in
theorem prepare_eq_error {u : Url} (nameless : u.host? = none) (method : Http.Method) :
    prepare method u = .error (Http.Fault.unsendable u).toError := by
  simp only [prepare, Http.Request.prepare, nameless]

omit [HostNames] in
/-- A request can be made for every URL that names a host. -/
theorem exists_prepare_of_host {u : Url} (named : u.host? ≠ none) (method : Http.Method) :
    ∃ r, prepare method u = .ok r ∧ r.url.withoutUserInfo = u.withoutUserInfo := by
  obtain ⟨host, named⟩ := Option.ne_none_iff_exists'.mp named
  obtain ⟨r, made⟩ := Http.exists_prepare_eq_ok named method
  refine ⟨r, ?_, (Http.prepared_of_prepare made).url⟩
  rw [prepare, made]

omit [HostNames] in
theorem host?_withForm (u : Url) (form : Form) : (withForm u form).host? = u.host? := by
  rw [Url.host?, withForm, Url.authority_withQuery, Url.host?]

namespace Invocation

/-- Whether the caller of a read gives the operation as a parameter. -/
def namesOperation : Invocation → Bool
  | get _ _ form => form.contains operationName
  | post _ _ _ | put _ _ | delete _ => false

/-- The method of a call. -/
def method : Invocation → Http.Method
  | get _ _ _ => .get
  | post _ _ _ => .post
  | put _ _ => .put
  | delete _ => .delete

/-- The URL that a request is made for where the resource is located. -/
def address (u : Url) : Invocation → Url
  | get _ operation form => withForm u (select form operation)
  | post _ operation _ => withForm u (select .empty operation)
  | put _ _ | delete _ => u

/-- What a call adds to a request for its URL. -/
def filled (r : Http.Request) : Invocation → Http.Request
  | get _ _ _ => r
  | post _ _ form | put _ form =>
    (r.withHeader ⟨"content-type", Form.contentType, false⟩).withBody (Text.utf8 form.encode)
  | delete _ => r.withBody []

omit [HostNames] in
theorem host?_address (v : Invocation) (u : Url) : (v.address u).host? = u.host? := by
  cases v with
  | get resource operation form => exact host?_withForm u _
  | post resource operation form => exact host?_withForm u _
  | put resource form => rfl
  | delete resource => rfl

omit [HostNames] in
@[simp] theorem url_filled (v : Invocation) (r : Http.Request) : (v.filled r).url = r.url := by
  cases v <;> rfl

/-- The steps to a request, the same for all verbs. -/
theorem request_eq (v : Invocation) (c : Client) :
    v.request c =
      if v.namesOperation then .error reservedName
      else do return v.filled (← prepare v.method (v.address (← c.locate v.resource))) := by
  cases v <;>
    simp [request, getRequest, postRequest, putRequest, deleteRequest, prepareForm, namesOperation,
      Invocation.resource, address, method, filled]

/-! ## The first fault -/

/-- What a caller is told about a resource that cannot be read. -/
def unreadable (resource : String) (f : Url.Fault) : Error :=
  .parse ("Invalid MAAS resource \x60" ++ resource ++ "\x60: " ++ f.message)

theorem locate_of_join_eq_error {c : Client} {resource : String} {f : Url.Fault}
    (unread : c.base.join resource = .error f) :
    c.locate resource = .error (unreadable resource f) := by
  rw [locate, unread]
  rfl

theorem locate_of_join_eq_ok {c : Client} {resource : String} {u : Url}
    (located : c.base.join resource = .ok u) : c.locate resource = .ok u := by
  rw [locate, located]

theorem locate_eq_ok_iff {c : Client} {resource : String} {u : Url} :
    c.locate resource = .ok u ↔ c.base.join resource = .ok u := by
  cases joined : c.base.join resource with
  | error f => simp [locate_of_join_eq_error joined]
  | ok v => simp [locate_of_join_eq_ok joined]

/-- Why a call ends before it reaches the network. Each reason stands behind those before it. -/
inductive Refused (v : Invocation) (c : Client) : Error → Prop where
  /-- The operation of a read is among the parameters. -/
  | reserved (names : v.namesOperation = true) : Refused v c reservedName
  /-- The resource cannot be read. -/
  | unlocated {f : Url.Fault} (free : v.namesOperation = false)
      (unread : c.base.join v.resource = .error f) : Refused v c (unreadable v.resource f)
  /-- The resource names no host. -/
  | nameless {u : Url} (free : v.namesOperation = false)
      (located : c.base.join v.resource = .ok u) (none : u.host? = none) :
      Refused v c (Http.Fault.unsendable (v.address u)).toError
  /-- The signer fails. -/
  | unsigned {u : Url} {r : Http.Request} {e : Error} (free : v.namesOperation = false)
      (located : c.base.join v.resource = .ok u) (named : u.host? ≠ none)
      (made : v.request c = .ok r) (fails : c.signer.sign r = .error e) : Refused v c e

section Steps

variable {v : Invocation} {c : Client} {u : Url} {e : Error}

theorem request_of_namesOperation (names : v.namesOperation = true) (c : Client) :
    v.request c = .error reservedName := by
  rw [request_eq, if_pos names]

theorem request_of_join_eq_error (free : v.namesOperation = false) {f : Url.Fault}
    (unread : c.base.join v.resource = .error f) :
    v.request c = .error (unreadable v.resource f) := by
  rw [request_eq, if_neg (Bool.eq_false_iff.mp free), locate_of_join_eq_error unread]
  rfl

theorem request_of_host?_eq_none (free : v.namesOperation = false)
    (located : c.base.join v.resource = .ok u) (nameless : u.host? = none) :
    v.request c = .error (Http.Fault.unsendable (v.address u)).toError := by
  have none : (v.address u).host? = none := by
    rw [host?_address, nameless]
  rw [request_eq, if_neg (Bool.eq_false_iff.mp free), locate_of_join_eq_ok located, ok_bind,
    prepare_eq_error none]
  rfl

/-- A request for a resource that names a host is always made. -/
theorem exists_request_of_host (free : v.namesOperation = false)
    (located : c.base.join v.resource = .ok u) (named : u.host? ≠ none) :
    ∃ r, v.request c = .ok r ∧ r.url.withoutUserInfo = (v.address u).withoutUserInfo := by
  have some : (v.address u).host? ≠ none := by
    rwa [host?_address]
  obtain ⟨r, prepared, url⟩ := exists_prepare_of_host some v.method
  refine ⟨v.filled r, ?_, ?_⟩
  · rw [request_eq, if_neg (Bool.eq_false_iff.mp free), locate_of_join_eq_ok located, ok_bind,
      prepared]
    rfl
  · rw [url_filled, url]

/-- A call is not signed for the first reason there is, and for no other. -/
theorem signed_eq_error_iff : v.signed c = .error e ↔ v.Refused c e := by
  constructor
  · intro refused
    cases names : v.namesOperation with
    | true =>
        rw [signed_of_request_eq_error (request_of_namesOperation names c)] at refused
        cases refused
        exact .reserved names
    | false =>
        cases located : c.base.join v.resource with
        | error f =>
            rw [signed_of_request_eq_error (request_of_join_eq_error names located)] at refused
            cases refused
            exact .unlocated names located
        | ok u =>
            by_cases nameless : u.host? = none
            · rw [signed_of_request_eq_error
                (request_of_host?_eq_none names located nameless)] at refused
              cases refused
              exact .nameless names located nameless
            · obtain ⟨r, made, -⟩ := exists_request_of_host names located nameless
              rw [signed, made, ok_bind] at refused
              exact .unsigned names located nameless made refused
  · intro refused
    cases refused with
    | reserved names => exact signed_of_request_eq_error (request_of_namesOperation names c)
    | unlocated free unread =>
        exact signed_of_request_eq_error (request_of_join_eq_error free unread)
    | nameless free located none =>
        exact signed_of_request_eq_error (request_of_host?_eq_none free located none)
    | unsigned free located named made fails => rw [signed, made, ok_bind, fails]

theorem Refused.call_eq (refused : v.Refused c e) (net : Http.Network) :
    v.call c net = .refused e :=
  call_of_signed_eq_error (signed_eq_error_iff.mpr refused) net

end Steps

/-! ## Calls and the network -/

omit [HostNames] in
/-- An answer of the network is told as an error of two kinds only. -/
theorem classify_eq_error {outcome : Except Http.Fault Http.Response} {e : Error}
    (h : classify outcome = .error e) :
    (∃ status line body, e = .api status line body) ∨ ∃ text, e = .transport text := by
  cases outcome with
  | error f =>
      cases h
      exact .inr ⟨f.message, rfl⟩
  | ok r =>
      cases success : Http.Status.isSuccess r.status with
      | true =>
          rw [classify, if_pos success] at h
          cases h
      | false =>
          rw [classify_of_isSuccess_eq_false success] at h
          cases h
          exact .inl ⟨_, _, _, rfl⟩

/-- A call that is refused sends and reports nothing, and any other is told by what the network
did. -/
theorem refused_or_told (v : Invocation) (c : Client) (net : Http.Network) :
    (∃ e, v.Refused c e ∧ v.call c net = .refused e) ∨
    ∀ e, (v.call c net).result = .error e →
      (∃ status line body, e = .api status line body) ∨ ∃ text, e = .transport text := by
  cases signs : v.signed c with
  | error e => exact .inl ⟨e, signed_eq_error_iff.mp signs, call_of_signed_eq_error signs net⟩
  | ok own =>
      refine .inr fun e told => ?_
      obtain ⟨exchange, -, -, result⟩ := exists_travels signs net
      rw [result] at told
      cases classified : classify exchange.outcome with
      | ok body =>
          rw [classified] at told
          cases told
      | error e' =>
          rw [classified] at told
          cases told
          exact classify_eq_error classified

/-- Whether a call is checked in full before it touches the network. -/
structure ChecksBeforeSending (v : Invocation) (c : Client) (net : Http.Network) : Prop where
  /-- A call that is refused for an argument or for its resource has sent nothing, and has not
  reported that it would. -/
  unsent : ∀ e text, (v.call c net).result = .error e →
    e = .invalidArgument text ∨ e = .parse text →
    (v.call c net).sent = [] ∧ ∀ method url, .sending method url ∉ (v.call c net).events
  /-- A call that has sent something succeeds, or is told by an answer or a failure of the
  network. -/
  told : (v.call c net).sent ≠ [] →
    (∃ shown, (v.call c net).result = .ok shown) ∨
    (∃ status line body, (v.call c net).result = .error (.api status line body)) ∨
    ∃ text, (v.call c net).result = .error (.transport text)
  /-- The parameters are checked first. -/
  reserved : v.namesOperation = true → ∃ text, v.call c net = .refused (.invalidArgument text)
  /-- The resource is located next. -/
  unlocated : v.namesOperation = false → ∀ f, c.base.join v.resource = .error f →
    ∃ text, v.call c net = .refused (.parse text)
  /-- The resource has to name a host, and who signs has no say in that. -/
  nameless : v.namesOperation = false → ∀ u, c.base.join v.resource = .ok u → u.host? = none →
    ∃ text, ∀ signer, v.call (c.withSigner signer) net = .refused (.transport text)
  /-- Then the request for the resource is signed: a fault of the signer is told as it is, and
  otherwise it is reported that the request will be sent. -/
  signed : v.namesOperation = false → ∀ u, c.base.join v.resource = .ok u → u.host? ≠ none →
    ∃ r, v.request c = .ok r ∧ r.url.withoutUserInfo = (v.address u).withoutUserInfo ∧
      (∀ e, c.signer.sign r = .error e → v.call c net = .refused e) ∧
      ∀ own, c.signer.sign r = .ok own → .sending own.method own.url ∈ (v.call c net).events

/-- All calls are checked in full before they touch the network. -/
theorem checksBeforeSending (v : Invocation) (c : Client) (net : Http.Network) :
    v.ChecksBeforeSending c net where
  unsent e text error kind := by
    rcases refused_or_told v c net with ⟨e', -, refused⟩ | told
    · rw [refused]
      exact ⟨rfl, fun method url => List.not_mem_nil⟩
    · rcases told e error with ⟨_, _, _, rfl⟩ | ⟨_, rfl⟩ <;> rcases kind with kind | kind <;>
        cases kind
  told sent := by
    rcases refused_or_told v c net with ⟨e, -, refused⟩ | told
    · rw [refused] at sent
      exact absurd rfl sent
    · cases result : (v.call c net).result with
      | ok shown => exact .inl ⟨shown, rfl⟩
      | error e =>
          rcases told e result with ⟨status, line, body, rfl⟩ | ⟨text, rfl⟩
          · exact .inr (.inl ⟨status, line, body, rfl⟩)
          · exact .inr (.inr ⟨text, rfl⟩)
  reserved names := ⟨_, (Refused.reserved names).call_eq net⟩
  unlocated free f unread := ⟨_, (Refused.unlocated free unread).call_eq net⟩
  nameless free u located none :=
    ⟨_, fun signer =>
      Refused.call_eq (c := c.withSigner signer) (.nameless free located none) net⟩
  signed free u located named := by
    obtain ⟨r, made, url⟩ := exists_request_of_host free located named
    refine ⟨r, made, url, fun e fails => ?_, fun own signs => ?_⟩
    · exact (Refused.unsigned free located named made fails).call_eq net
    · rw [call_eq, Invocation.signed, made, ok_bind, signs]
      exact List.mem_cons_self

end Invocation

end Calls

/-- A client for the machine it runs on whose signer refuses every request. -/
def unwilling : Client := loopback.withSigner (.refusing (.invalidArgument "no credentials"))

/-- Of several faults of a call the first one is told, and a fault of the signer as it is. -/
theorem Invocation.checksBeforeSending_unwilling :
    (∃ text, (get "http://[" "" (Form.empty.add "op" "")).call unwilling (.plain []) =
      .refused (.invalidArgument text)) ∧
    (∃ text, (get "http://[" "" .empty).call unwilling (.plain []) = .refused (.parse text)) ∧
    (∃ text, (delete "mailto:m").call unwilling (.plain []) = .refused (.transport text)) ∧
    (delete "m").call unwilling (.plain []) = .refused (.invalidArgument "no credentials") ∧
    ((delete "m").call unwilling (.plain [])).sent = [] := by
  have checks (v : Invocation) := checksBeforeSending v unwilling (.plain [])
  obtain ⟨f, unread⟩ : ∃ f, unwilling.base.join "http://[" = .error f := ⟨_, by rfl⟩
  obtain ⟨u, located, nowhere⟩ : ∃ u, unwilling.base.join "mailto:m" = .ok u ∧ u.host? = none :=
    ⟨_, by rfl, rfl⟩
  obtain ⟨u', located', named⟩ : ∃ u, unwilling.base.join "m" = .ok u ∧ u.host? ≠ none :=
    ⟨_, by rfl, by decide⟩
  obtain ⟨text, nameless⟩ := (checks (delete "mailto:m")).nameless rfl u located nowhere
  obtain ⟨r, -, -, fails, -⟩ := (checks (delete "m")).signed rfl u' located' named
  have refused := fails (.invalidArgument "no credentials") rfl
  have unsent := (checks (delete "m")).unsent (.invalidArgument "no credentials") "no credentials"
    (by rw [refused, Call.result_refused]) (.inl rfl)
  exact ⟨(checks _).reserved rfl, (checks _).unlocated rfl f unread, ⟨text, nameless _⟩, refused,
    unsent.1⟩

end RegionApi.Client
