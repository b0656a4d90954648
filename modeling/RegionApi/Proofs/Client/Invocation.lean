import RegionApi.Proofs.Http.Exchange
import RegionApi.Client

/-!
# Calls as data

A verb with its arguments is an `Invocation`. All four verbs come to the same: a request is built
and signed, and what comes of it is told with as much of the body as the verb tells (`call_eq`). So
what holds of every call is proved once.
-/

namespace RegionApi.Client

/-- A verb with its arguments. -/
inductive Invocation where
  | get (resource operation : String) (form : Form)
  | post (resource operation : String) (form : Form)
  | put (resource : String) (form : Form)
  | delete (resource : String)
deriving DecidableEq

namespace Invocation

/-- The resource that is called. -/
def resource : Invocation → String
  | get resource _ _ | post resource _ _ | put resource _ | delete resource => resource

variable [HostNames]

/-- The request of a call, before it is signed. -/
def request (c : Client) : Invocation → Except Error Http.Request
  | get resource operation form => c.getRequest resource operation form
  | post resource operation form => c.postRequest resource operation form
  | put resource form => c.putRequest resource form
  | delete resource => c.deleteRequest resource

/-- What the caller gets of a body. -/
def told : Invocation → Bytes → Option Bytes
  | get _ _ _, body | post _ _ _, body | put _ _, body => some body
  | delete _, _ => none

/-- The call itself. -/
def call (c : Client) (net : Http.Network) : Invocation → Call (Option Bytes)
  | get resource operation form => (c.get net resource operation form).andThen (.ok ∘ some)
  | post resource operation form => (c.post net resource operation form).andThen (.ok ∘ some)
  | put resource form => (c.put net resource form).andThen (.ok ∘ some)
  | delete resource => (c.delete net resource).andThen fun _ => .ok none

/-- The request of a call as the signer leaves it. -/
def signed (c : Client) (v : Invocation) : Except Error Http.Request :=
  v.request c >>= c.signer.sign

theorem call_eq_issue (v : Invocation) (c : Client) (net : Http.Network) :
    v.call c net = (c.issue net (v.request c)).andThen (.ok ∘ v.told) := by
  cases v with
  | get resource operation form => rfl
  | post resource operation form => rfl
  | put resource form => rfl
  | delete resource =>
      show ((c.issue net (c.deleteRequest resource)).andThen _).andThen _ = _
      cases h : (c.issue net (c.deleteRequest resource)).result with
      | error e => simp [Call.andThen, request, h, bind, Except.bind]
      | ok body => simp [Call.andThen, request, told, h, bind, Except.bind]

/-- A call whose request is not made or not signed is refused; any other sends its request, and
tells what comes of it. -/
theorem call_eq (v : Invocation) (c : Client) (net : Http.Network) :
    v.call c net =
      match v.signed c with
      | .error e => .refused e
      | .ok r =>
        let exchange := Http.Exchange.run c.agent net r
        ⟨(classify exchange.outcome).map v.told, exchange.sent, report r exchange.outcome⟩ := by
  rw [call_eq_issue, signed]
  cases v.request c with
  | error e => rfl
  | ok r =>
      show (c.dispatch net r).andThen _ = match c.signer.sign r with | .error _ => _ | .ok _ => _
      unfold dispatch
      cases c.signer.sign r with
      | error e => rfl
      | ok signed =>
          simp only [Call.andThen]
          cases classify (Http.Exchange.run c.agent net signed).outcome <;> rfl

theorem signed_of_request_eq_error {v : Invocation} {c : Client} {e : Error}
    (unmade : v.request c = .error e) : v.signed c = .error e := by
  rw [signed, unmade]
  rfl

theorem call_of_signed_eq_error {v : Invocation} {c : Client} {e : Error}
    (refused : v.signed c = .error e) (net : Http.Network) : v.call c net = .refused e := by
  rw [call_eq, refused]

/-- What is sent for a call follows the rules of an exchange, and its end is what is told. -/
theorem exists_travels {v : Invocation} {c : Client} {own : Http.Request}
    (signs : v.signed c = .ok own) (net : Http.Network) :
    ∃ e, Http.Exchange.Travels c.agent own.url Http.Exchange.redirectLimit net
        (.start c.agent own) e ∧
      (v.call c net).sent = e.sent ∧
      (v.call c net).result = (classify e.outcome).map v.told := by
  refine ⟨Http.Exchange.run c.agent net own, Http.Exchange.travels_travel _ _ _ _ _, ?_, ?_⟩ <;>
    rw [call_eq, signs]

/-- A call sends first what its request has become once it is signed, if that gets to a server. -/
theorem head?_sent_call (v : Invocation) (c : Client) (net : Http.Network) :
    (v.call c net).sent.head? =
      match v.signed c with
      | .error _ => none
      | .ok own =>
        if net.carries own.url then some (Http.Hop.start c.agent own).sent else none := by
  rw [call_eq]
  cases v.signed c with
  | error e => rfl
  | ok own => exact Http.Exchange.head?_sent_run c.agent net own

theorem head?_sent_call_eq_some_iff {v : Invocation} {c : Client} {net : Http.Network}
    {s : Http.Sent} :
    (v.call c net).sent.head? = some s ↔ ∃ own, v.signed c = .ok own ∧
      net.carries own.url = true ∧ (Http.Hop.start c.agent own).sent = s := by
  rw [head?_sent_call]
  cases v.signed c with
  | error e => simp
  | ok own => cases net.carries own.url <;> simp [*]

end Invocation

/-- Success is told of nothing but a response that reports success. -/
theorem classify_eq_ok {outcome : Except Http.Fault Http.Response} {body : Bytes}
    (h : classify outcome = .ok body) :
    ∃ r, outcome = .ok r ∧ Http.Status.isSuccess r.status = true ∧ r.body = body := by
  unfold classify at h
  split at h
  · rename_i r
    split at h
    · rename_i success
      exact ⟨r, rfl, success, Except.ok.inj h⟩
    · cases h
  · cases h

/-- A response that reports no success is told with its status and body. -/
theorem classify_of_isSuccess_eq_false {r : Http.Response}
    (h : Http.Status.isSuccess r.status = false) :
    classify (.ok r) = .error (.api r.status (Http.Status.line r.status) r.body) :=
  if_neg (Bool.eq_false_iff.mp h)

end RegionApi.Client
