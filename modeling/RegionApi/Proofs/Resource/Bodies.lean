import RegionApi.Proofs.Client.Classification
import RegionApi.Proofs.Json.Printing
import RegionApi.Proofs.Resource.FollowUp
import RegionApi.Proofs.Resource.Run

/-!
# Bodies are decoded when they should be

What a call of a resource brings is told by the status of the response first, and by its body only
if that reports success. An operation brings the value that the body is a text of, or null if there
is no body. A resource that is read or changed brings the resource that the body is a text of
(`decodesBodies`).
-/

namespace RegionApi

/-- The body of a complete response, or the error that it is. -/
def Client.answer (status : Nat) (body : Bytes) : Except Error Bytes :=
  if 200 ≤ status ∧ status ≤ 299 then .ok body
  else .error (.api status (Http.Status.line status) body)

theorem Client.answer_of_success {status : Nat} (success : 200 ≤ status ∧ status ≤ 299)
    (body : Bytes) : answer status body = .ok body := if_pos success

theorem Client.answer_of_failure {status : Nat} (failure : ¬(200 ≤ status ∧ status ≤ 299))
    (body : Bytes) : answer status body = .error (.api status (Http.Status.line status) body) :=
  if_neg failure

namespace Resource

section Bodies

variable [HostNames]

/-! ## Values and resources in bodies -/

omit [HostNames] in
/-- The value in a body is the one it is a text of, and null in an empty body. -/
theorem decodeBody_eq_ok_iff {body : Bytes} {v : Json} :
    decodeBody body = .ok v ↔ (body = [] ∧ v = .null) ∨ Json.IsText body v := by
  rw [decodeBody]
  split
  · rename_i empty
    subst empty
    constructor
    · intro h
      cases h
      exact .inl ⟨rfl, rfl⟩
    · rintro (⟨-, rfl⟩ | text)
      · rfl
      · exact absurd text (Json.not_isText_nil v)
  · rename_i nonempty
    rw [Json.decode_eq_ok_iff]
    constructor
    · exact .inr
    · rintro (⟨empty, -⟩ | text)
      · exact absurd empty nonempty
      · exact text

omit [HostNames] in
theorem exists_of_decodeBody_eq_error {body : Bytes} {e : Error} (h : decodeBody body = .error e) :
    ∃ message, e = .decode message := by
  rw [decodeBody] at h
  split at h
  · cases h
  · exact Json.exists_of_decode_eq_error h

theorem exists_of_decode_eq_error {r : Resource} {body : Bytes} {e : Error}
    (h : r.decode body = .error e) : ∃ message, e = .decode message := by
  rw [decode] at h
  cases value : decodeBody body with
  | error f =>
      rw [value] at h
      cases h
      exact exists_of_decodeBody_eq_error value
  | ok v =>
      rw [value] at h
      cases v with
      | object fields =>
          change ofFields r.client fields = .error e at h
          rw [ofFields] at h
          split at h
          · cases h
          · cases h
            exact ⟨_, rfl⟩
      | null | bool | number | string | array =>
          cases h
          exact ⟨_, rfl⟩

/-! ## What is told of a response -/

/-- Whether a result tells a response to an operation of a resource. -/
structure TellsValue (status : Nat) (body : Bytes) (result : Except Error Json) : Prop where
  /-- A status that reports no success is told with the body, whatever that is. -/
  failure : ¬(200 ≤ status ∧ status ≤ 299) →
    result = .error (.api status (Http.Status.line status) body)
  /-- Else the value is told that the body is a text of, and null of an empty body. -/
  value : 200 ≤ status → status ≤ 299 → ∀ v,
    result = .ok v ↔ (body = [] ∧ v = .null) ∨ Json.IsText body v
  /-- All other bodies are refused. -/
  otherwise : 200 ≤ status → status ≤ 299 → (∀ v, result ≠ .ok v) →
    ∃ message, result = .error (.decode message)

/-- Whether a result tells a response to a call that brings a resource. -/
structure TellsResource (client : Client) (status : Nat) (body : Bytes)
    (result : Except Error Resource) : Prop where
  /-- A status that reports no success is told with the body, whatever that is. -/
  failure : ¬(200 ≤ status ∧ status ≤ 299) →
    result = .error (.api status (Http.Status.line status) body)
  /-- Else the resource is told with the fields of the object that the body is a text of, if they
  tell its address. -/
  resource : 200 ≤ status → status ≤ 299 → ∀ r,
    result = .ok r ↔ ∃ fields, Json.IsText body (.object fields) ∧ r.Holds client fields
  /-- All other bodies are refused, the empty one among them. -/
  otherwise : 200 ≤ status → status ≤ 299 → (∀ r, result ≠ .ok r) →
    ∃ message, result = .error (.decode message)
  /-- An object whose numbers are all whole is brought back from its compact text. -/
  printed : 200 ≤ status → status ≤ 299 → ∀ fields address, (Json.object fields).IsExact →
    (Json.object fields).IsCanonical → (Json.object fields).depth ≤ 127 →
    Json.find? addressField fields = some (.string address) →
    body = Text.utf8 (Json.object fields).text → result = .ok ⟨client, address, fields⟩

omit [HostNames] in
theorem tellsValue_answer (status : Nat) (body : Bytes) :
    TellsValue status body (Client.answer status body >>= decodeBody) where
  failure failure := by
    rw [Client.answer_of_failure failure]
    rfl
  value least most v := by
    rw [Client.answer_of_success ⟨least, most⟩, ok_bind]
    exact decodeBody_eq_ok_iff
  otherwise least most refused := by
    rw [Client.answer_of_success ⟨least, most⟩, ok_bind] at refused ⊢
    cases result : decodeBody body with
    | ok v => exact absurd result (refused v)
    | error e =>
        obtain ⟨message, rfl⟩ := exists_of_decodeBody_eq_error result
        exact ⟨message, rfl⟩

theorem tellsResource_answer (r : Resource) (status : Nat) (body : Bytes) :
    TellsResource r.client status body (Client.answer status body >>= r.decode) := by
  have resource (success : 200 ≤ status ∧ status ≤ 299) (new : Resource) :
      (Client.answer status body >>= r.decode) = .ok new ↔
        ∃ fields, Json.IsText body (.object fields) ∧ new.Holds r.client fields := by
    rw [Client.answer_of_success success, ok_bind, decode_eq_ok_iff]
    simp only [Json.decode_eq_ok_iff]
  constructor
  case failure =>
    intro failure
    rw [Client.answer_of_failure failure]
    rfl
  case resource => exact fun least most => resource ⟨least, most⟩
  case otherwise =>
    intro least most refused
    rw [Client.answer_of_success ⟨least, most⟩, ok_bind] at refused ⊢
    cases result : r.decode body with
    | ok new => exact absurd result (refused new)
    | error e =>
        obtain ⟨message, rfl⟩ := exists_of_decode_eq_error result
        exact ⟨message, rfl⟩
  case printed =>
    rintro least most fields address exact canonical shallow told rfl
    rw [resource ⟨least, most⟩]
    exact ⟨fields, Json.isText_text exact canonical shallow, rfl, rfl, told⟩

/-! ## Calls -/

/-- Whether what follows comes to a response of a status with a body in the end. -/
def FollowUp.Brings (f : FollowUp) (r : Resource) (net : Http.Network) (status : Nat)
    (body : Bytes) : Prop :=
  ∃ own, (f.invocation r).signed r.client = .ok own ∧
    (Http.Leg.start r.client.agent net own).Returns status body

theorem FollowUp.Brings.result_eq {f : FollowUp} {r : Resource} {net : Http.Network}
    {status : Nat} {body : Bytes} (h : f.Brings r net status body) :
    ((f.invocation r).call r.client net).result =
      (Client.answer status body).map (f.invocation r).told := by
  obtain ⟨own, signs, returns⟩ := h
  rw [Client.Invocation.result_of_signed_eq_ok signs]
  by_cases success : 200 ≤ status ∧ status ≤ 299
  · rw [Client.classified_of_returns _ _ returns success, Client.answer_of_success success]
    rfl
  · rw [Client.classified_of_returns_not _ _ returns success, Client.answer_of_failure success]
    rfl

omit [HostNames] in
/-- What is told with all of its body is told as it is. -/
theorem result_eq_of_andThen_some {call : Call Bytes} {x : Except Error Bytes}
    (h : (call.andThen (.ok ∘ some)).result = x.map some) : call.result = x := by
  rw [Call.result_andThen] at h
  cases result : call.result with
  | error e =>
      rw [result] at h
      cases x with
      | error f =>
          cases h
          rfl
      | ok b => cases h
  | ok a =>
      rw [result] at h
      cases x with
      | error f => cases h
      | ok b =>
          cases h
          rfl

/-- Whether all responses to what is asked of a resource are told as they should be. -/
structure DecodesBodies (r : Resource) (net : Http.Network) : Prop where
  fetch : ∀ status body, FollowUp.fetch.Brings r net status body →
    TellsResource r.client status body (r.fetch net).result
  update : ∀ form status body, (FollowUp.update form).Brings r net status body →
    TellsResource r.client status body (r.update net form).result
  callGet : ∀ operation form status body,
    (FollowUp.callGet operation form).Brings r net status body →
    TellsValue status body (r.callGet net operation form).result
  callPost : ∀ operation form status body,
    (FollowUp.callPost operation form).Brings r net status body →
    TellsValue status body (r.callPost net operation form).result

/-- Whatever a server answers with, it is decoded exactly if it should be. -/
theorem decodesBodies (r : Resource) (net : Http.Network) : r.DecodesBodies net := by
  constructor
  case fetch =>
    intro status body brings
    rw [Resource.fetch, Call.result_andThen, result_eq_of_andThen_some brings.result_eq]
    exact tellsResource_answer r status body
  case update =>
    intro form status body brings
    rw [Resource.update, Call.result_andThen, result_eq_of_andThen_some brings.result_eq]
    exact tellsResource_answer r status body
  case callGet =>
    intro operation form status body brings
    rw [Resource.callGet, Call.result_andThen, result_eq_of_andThen_some brings.result_eq]
    exact tellsValue_answer status body
  case callPost =>
    intro operation form status body brings
    rw [Resource.callPost, Call.result_andThen, result_eq_of_andThen_some brings.result_eq]
    exact tellsValue_answer status body

end Bodies

/-- A resource of the machine the client runs on. -/
def machine : Resource := ofAddress Client.loopback "m/"

/-- The object that it is, as a server writes it. -/
def machineBody : Bytes := Text.utf8 (Json.object (addressOnly "m/")).text

/-- A network that answers with a status and a body. -/
def answering (status : Nat) (body : Bytes) : Http.Network :=
  .plain [.response ⟨status, [], body⟩ .complete]

/-- Read again, a resource is what it was, unless the status says otherwise; and an operation may
bring nothing. -/
theorem decodesBodies_machine :
    (FollowUp.fetch.Brings machine (answering 200 machineBody) 200 machineBody ∧
      (machine.fetch (answering 200 machineBody)).result = .ok machine) ∧
    (FollowUp.fetch.Brings machine (answering 404 machineBody) 404 machineBody ∧
      (machine.fetch (answering 404 machineBody)).result =
        .error (.api 404 (Http.Status.line 404) machineBody)) ∧
    (FollowUp.callGet "" .empty).Brings machine (answering 200 []) 200 [] ∧
      (machine.callGet (answering 200 []) "" .empty).result = .ok .null := by
  let own : Http.Request := ⟨.get, Client.Invocation.loopbackResource "m", [], none⟩
  have goes : (Http.Network.plain []).carries own.url = true := by decide
  have returns (status : Nat) (body : Bytes)
      (told : (answering status body).next.1 = .response ⟨status, [], body⟩ .complete)
      (here : Http.Status.isRedirect status = false)
      (some : Http.Status.isBodiless status = false) :
      (Http.Leg.start machine.client.agent (answering status body) own).Returns status body :=
    ⟨_, ⟨status, [], body⟩, .complete, .refl, ⟨goes, told⟩,
      if_neg (Bool.eq_false_iff.mp here), rfl,
      .plain some fun packed => absurd packed.taken Bool.false_ne_true⟩
  have read : (FollowUp.fetch.invocation machine).signed machine.client = .ok own := by rfl
  have asked : ((FollowUp.callGet "" .empty).invocation machine).signed machine.client =
      .ok own := by rfl
  have ok : FollowUp.fetch.Brings machine (answering 200 machineBody) 200 machineBody :=
    ⟨own, read, returns 200 _ rfl rfl rfl⟩
  have missing : FollowUp.fetch.Brings machine (answering 404 machineBody) 404 machineBody :=
    ⟨own, read, returns 404 _ rfl rfl rfl⟩
  have nothing : (FollowUp.callGet "" .empty).Brings machine (answering 200 []) 200 [] :=
    ⟨own, asked, returns 200 _ rfl rfl rfl⟩
  have isExact : (Json.object (addressOnly "m/")).IsExact := by
    refine .object fun m hm => ?_
    rw [List.mem_singleton.mp hm]
    exact .string "m/"
  refine ⟨⟨ok, ?_⟩, ⟨missing, ?_⟩, nothing, ?_⟩
  · exact ((decodesBodies machine _).fetch _ _ ok).printed (by decide) (by decide) _ _ isExact
      (isCanonical_addressOnly "m/") (by decide) (find?_addressOnly "m/") rfl
  · exact ((decodesBodies machine _).fetch _ _ missing).failure (by decide)
  · exact (((decodesBodies machine _).callGet _ _ _ _ nothing).value (by decide) (by decide) _).mpr
      (.inl ⟨rfl, rfl⟩)

end Resource

end RegionApi
