import RegionApi.Proofs.Client.FirstRequest
import RegionApi.Proofs.Client.Invocation
import RegionApi.Proofs.Except
import RegionApi.Proofs.Http.Outcome

/-!
# What callers are told

A result is faithful to a request on its way (`IsFaithful`) if it tells what the request comes to:
success with the body, any other status with the status and the body, and a failure without either.
`isFaithful_call` says that so is the result of every call whose request is signed, whatever the
network does.
-/

namespace RegionApi

/-! ## Status lines -/

theorem Http.Status.isSuccess_iff {code : Nat} :
    isSuccess code = true ↔ 200 ≤ code ∧ code ≤ 299 := by
  simp [isSuccess]

/-- A status line begins with the code. -/
theorem Http.Status.decimal_isPrefix_line (code : Nat) :
    Text.decimal code <+: (line code).toList := by
  simp only [line, String.toList_append, String.toList_ofList, List.append_assoc]
  exact List.prefix_append _ _

theorem Error.message_api (status : Nat) (line : String) (body : Bytes) :
    (api status line body).message = "Error requesting the MAAS server: " ++ line ++ "." := rfl

/-- The text of an error shows the status line. -/
theorem Error.line_isInfix_message (status : Nat) (line : String) (body : Bytes) :
    line.toList <:+: (api status line body).message.toList := by
  rw [message_api, String.toList_append, String.toList_append]
  exact List.infix_append _ _ _

namespace Client

theorem classify_of_isSuccess {r : Http.Response} (h : Http.Status.isSuccess r.status = true) :
    classify (.ok r) = .ok r.body := if_pos h

/-! ## Faithful results -/

/-- Whether a result tells what a request on its way comes to, with as much of a body as is shown
of a success. -/
structure IsFaithful [HostNames] (l : Http.Leg) (shown : Bytes → Option Bytes)
    (result : Except Error (Option Bytes)) : Prop where
  /-- A complete response that reports success is told by its body. -/
  success : ∀ status body, l.Returns status body → 200 ≤ status → status ≤ 299 →
    result = .ok (shown body)
  /-- Any other complete response is told by its status and body, and a status line for both
  programs and people. -/
  failure : ∀ status body, l.Returns status body → ¬(200 ≤ status ∧ status ≤ 299) →
    ∃ line, result = .error (.api status line body) ∧ Text.decimal status <+: line.toList ∧
      line.toList <:+: (Error.api status line body).message.toList
  /-- A failure is told without a status and without a body. -/
  fault : l.Fails → ∃ e text, result = .error e ∧ e = .transport text ∧ e.status? = none ∧
    e.body? = none
  /-- There is nothing else to be told. -/
  decided : (∃ status body, l.Returns status body) ∨ l.Fails
  /-- Success is told of complete responses that report it, and of nothing else. -/
  isOk_iff : (∃ told, result = .ok told) ↔
    ∃ status body, l.Returns status body ∧ 200 ≤ status ∧ status ≤ 299
  /-- An error has the status of a complete response that reports no success, or none. -/
  status?_iff : ∀ e, result = .error e → ∀ status, e.status? = some status ↔
    ∃ body, l.Returns status body ∧ ¬(200 ≤ status ∧ status ≤ 299)
  /-- An error has the body of such a response, or none. -/
  body?_iff : ∀ e, result = .error e → ∀ body, e.body? = some body ↔
    ∃ status, l.Returns status body ∧ ¬(200 ≤ status ∧ status ≤ 299)

section Faithful

variable [HostNames] {l : Http.Leg} {status : Nat} {body : Bytes} (first : Url)
  (shown : Bytes → Option Bytes)

theorem classified_of_returns (h : l.Returns status body)
    (success : 200 ≤ status ∧ status ≤ 299) :
    (classify (l.exchange first).outcome).map shown = .ok (shown body) := by
  obtain ⟨r, outcome, rfl, rfl⟩ := Http.Leg.outcome_of_returns first h
  rw [outcome, classify_of_isSuccess (Http.Status.isSuccess_iff.mpr success)]
  rfl

theorem classified_of_returns_not (h : l.Returns status body)
    (failure : ¬(200 ≤ status ∧ status ≤ 299)) :
    (classify (l.exchange first).outcome).map shown =
      .error (.api status (Http.Status.line status) body) := by
  obtain ⟨r, outcome, rfl, rfl⟩ := Http.Leg.outcome_of_returns first h
  have none : Http.Status.isSuccess r.status = false :=
    Bool.eq_false_iff.mpr fun success => failure (Http.Status.isSuccess_iff.mp success)
  rw [outcome, classify_of_isSuccess_eq_false none]
  rfl

theorem classified_of_fails (h : l.Fails) :
    ∃ text, (classify (l.exchange first).outcome).map shown = .error (.transport text) := by
  obtain ⟨fault, outcome⟩ := Http.Leg.outcome_of_fails first h
  refine ⟨fault.message, ?_⟩
  rw [outcome]
  rfl

/-- An error that is told is that of a complete response, or of a failure. -/
theorem eq_api_or_transport_of_classified {e : Error}
    (h : (classify (l.exchange first).outcome).map shown = .error e) :
    (∃ status body, l.Returns status body ∧ ¬(200 ≤ status ∧ status ≤ 299) ∧
      e = .api status (Http.Status.line status) body) ∨ ∃ text, e = .transport text := by
  rcases l.returns_or_fails with ⟨status, body, returns⟩ | fails
  · by_cases success : 200 ≤ status ∧ status ≤ 299
    · rw [classified_of_returns first shown returns success] at h
      cases h
    · rw [classified_of_returns_not first shown returns success] at h
      cases h
      exact .inl ⟨status, body, returns, success, rfl⟩
  · obtain ⟨text, told⟩ := classified_of_fails first shown fails
    rw [told] at h
    cases h
    exact .inr ⟨text, rfl⟩

/-- What comes of a request is told faithfully. -/
theorem isFaithful_classify (l : Http.Leg) :
    IsFaithful l shown ((classify (l.exchange first).outcome).map shown) where
  success status body returns least most := classified_of_returns first shown returns ⟨least, most⟩
  failure status body returns failure :=
    ⟨Http.Status.line status, classified_of_returns_not first shown returns failure,
      Http.Status.decimal_isPrefix_line status, Error.line_isInfix_message _ _ _⟩
  fault fails := by
    obtain ⟨text, told⟩ := classified_of_fails first shown fails
    exact ⟨.transport text, text, told, rfl, rfl, rfl⟩
  decided := l.returns_or_fails
  isOk_iff := by
    constructor
    · rintro ⟨told, ok⟩
      rcases l.returns_or_fails with ⟨status, body, returns⟩ | fails
      · by_cases success : 200 ≤ status ∧ status ≤ 299
        · exact ⟨status, body, returns, success⟩
        · rw [classified_of_returns_not first shown returns success] at ok
          cases ok
      · obtain ⟨text, error⟩ := classified_of_fails first shown fails
        rw [error] at ok
        cases ok
    · rintro ⟨status, body, returns, success⟩
      exact ⟨shown body, classified_of_returns first shown returns success⟩
  status?_iff e error status := by
    constructor
    · intro told
      rcases eq_api_or_transport_of_classified first shown error with
        ⟨_, body, returns, failure, rfl⟩ | ⟨text, rfl⟩
      · cases told
        exact ⟨body, returns, failure⟩
      · cases told
    · rintro ⟨body, returns, failure⟩
      rw [classified_of_returns_not first shown returns failure] at error
      cases error
      rfl
  body?_iff e error body := by
    constructor
    · intro told
      rcases eq_api_or_transport_of_classified first shown error with
        ⟨status, _, returns, failure, rfl⟩ | ⟨text, rfl⟩
      · cases told
        exact ⟨status, returns, failure⟩
      · cases told
    · rintro ⟨status, returns, failure⟩
      rw [classified_of_returns_not first shown returns failure] at error
      cases error
      rfl

end Faithful

/-! ## Calls -/

namespace Invocation

theorem result_of_signed_eq_ok [HostNames] {v : Invocation} {c : Client} {own : Http.Request}
    (signs : v.signed c = .ok own) (net : Http.Network) :
    (v.call c net).result =
      (classify ((Http.Leg.start c.agent net own).exchange own.url).outcome).map v.told := by
  rw [call_eq, signs, Http.Leg.exchange_start]

/-- A call whose request is signed is told faithfully, whatever the network does with it. -/
theorem isFaithful_call [HostNames] {v : Invocation} {c : Client} {own : Http.Request}
    (signs : v.signed c = .ok own) (net : Http.Network) :
    IsFaithful (Http.Leg.start c.agent net own) v.told (v.call c net).result := by
  rw [result_of_signed_eq_ok signs]
  exact isFaithful_classify _ _ _

/-- A resource of the machine the client runs on. -/
def loopbackResource (name : String) : Url := { loopback.base with path := .segments [name, ""] }

/-- A removal that is redirected, and answered with a failure whose body is no text. -/
theorem isFaithful_call_loopback :
    ∃ (own : Http.Request) (net : Http.Network),
      (delete "m/").signed loopback = .ok own ∧
      (Http.Leg.start loopback.agent net own).Returns 503 [0xff] ∧
      IsFaithful (Http.Leg.start loopback.agent net own) (delete "m/").told
        ((delete "m/").call loopback net).result ∧
      ∃ line, ((delete "m/").call loopback net).result = .error (.api 503 line [0xff]) := by
  let moved : Http.Response := ⟨307, [("location", "/n/")], []⟩
  let net : Http.Network :=
    .plain [.response moved .complete, .response ⟨503, [], [0xff]⟩ .complete]
  let own : Http.Request := ⟨.delete, loopbackResource "m", [], some []⟩
  have signs : (delete "m/").signed loopback = .ok own := by rfl
  have redirected : (Http.Leg.start loopback.agent net own).Answered moved .complete :=
    ⟨by decide, rfl⟩
  have there : (Http.Leg.start loopback.agent net own).hop.target? moved =
      some (loopbackResource "n") := by decide +kernel
  have returns : (Http.Leg.start loopback.agent net own).Returns 503 [0xff] :=
    ⟨_, ⟨503, [], [0xff]⟩, .complete, .head (.onward redirected there) .refl, ⟨by decide, rfl⟩,
      by rfl, rfl, .plain rfl fun packed => absurd packed.taken (by decide)⟩
  have faithful := isFaithful_call signs net
  obtain ⟨line, told, -, -⟩ := faithful.failure 503 [0xff] returns (by decide)
  exact ⟨own, net, signs, returns, faithful, line, told⟩

/-- A body that has been packed is told unpacked, if the client takes such bodies. -/
example :
    let net : Http.Network :=
      ⟨fun _ => true, [.response ⟨200, [("content-encoding", "gzip")], [0x1f, 0x8b]⟩ .complete],
        fun _ => .whole [0x5b, 0x5d]⟩
    ((get "m/" "" .empty).call { loopback with agent := ⟨"", true⟩ } net).result =
        .ok (some [0x5b, 0x5d]) ∧
      ((get "m/" "" .empty).call loopback net).result = .ok (some [0x1f, 0x8b]) :=
  ⟨by rfl, by rfl⟩

end Invocation

end Client

end RegionApi
