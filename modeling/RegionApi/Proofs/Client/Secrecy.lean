import RegionApi.Proofs.Client.Authentication
import RegionApi.Proofs.Http.Redaction

/-!
# Secrecy

What is seen of a client that signs with an API key, but for the values of the authorizations it
sends, is the same for all keys: how its making ended and what was reported then, and of every call
in a sequence of calls the result, the requests and the reports (`observed_authenticated_eq`). So a
key gets into the authorizations and nowhere else.
-/

namespace RegionApi

/-- The call without the values of authorizations. -/
def Call.redacted {α : Type} (c : Call α) : Call α :=
  { c with sent := c.sent.map Http.Sent.redacted }

namespace Client

section Sessions

variable [HostNames]

/-! ## Calls one after the other -/

/-- The network after a call. -/
def Invocation.networkAfter (v : Invocation) (c : Client) (net : Http.Network) : Http.Network :=
  match v.signed c with
  | .error _ => net
  | .ok own => (Http.Exchange.run c.agent net own).network

/-- A call in a sequence, and what happens to the network before it: the network may go on with the
answers that are left, or be given others. -/
structure Turn where
  before : Http.Network → Http.Network
  invocation : Invocation

/-- The calls of a sequence, each on the network that the ones before it have left. -/
def session (c : Client) (net : Http.Network) : List Turn → List (Call (Option Bytes))
  | [] => []
  | t :: rest =>
    t.invocation.call c (t.before net) ::
      session c (t.invocation.networkAfter c (t.before net)) rest

/-- Whether every call of two clients is seen in the same way and leaves the same network, values of
authorizations apart. -/
def Alike (a b : Client) : Prop :=
  ∀ (v : Invocation) (net : Http.Network),
    (v.call a net).redacted = (v.call b net).redacted ∧
      v.networkAfter a net = v.networkAfter b net

/-- Sequences of calls are seen in the same way if single calls are. -/
theorem Alike.redacted_session {a b : Client} (alike : a.Alike b) (net : Http.Network)
    (turns : List Turn) :
    (session a net turns).map Call.redacted = (session b net turns).map Call.redacted := by
  induction turns generalizing net with
  | nil => simp only [session]
  | cons t rest ih =>
      obtain ⟨call, network⟩ := alike t.invocation (t.before net)
      simp only [session, List.map_cons]
      rw [call, network, ih]

/-- What is seen of a client: what its making reported, and what its calls brought, or why there is
no client. -/
structure Observed where
  making : List Event
  calls : Except Error (List (Call (Option Bytes)))

/-- What is seen of a client that is made and then used, without the values of authorizations. -/
def Made.observed (m : Made) (net : Http.Network) (turns : List Turn) : Observed :=
  ⟨m.events, m.result.map fun c => (session c net turns).map Call.redacted⟩

/-! ## Two signatures -/

/-- A request is exchanged in the same way whatever the signature. -/
theorem redacted_run_setHeader (p q : OAuth.Plaintext) (agent : Http.Agent) (net : Http.Network)
    (r : Http.Request) :
    (Http.Exchange.run agent net
        (r.setHeader ⟨"authorization", p.authorization, true⟩)).redacted =
      (Http.Exchange.run agent net
        (r.setHeader ⟨"authorization", q.authorization, true⟩)).redacted := by
  rw [Http.Exchange.redacted_run, Http.Exchange.redacted_run,
    Http.Request.redacted_setHeader r p.authorization q.authorization]

/-- Clients that differ in their signature alone are seen in the same way. -/
theorem alike_plaintext (p q : OAuth.Plaintext) (c : Client) :
    (c.withSigner (.plaintext p)).Alike (c.withSigner (.plaintext q)) := by
  intro v net
  cases made : v.request c with
  | error e =>
      have unsigned (s : Signer) : v.signed (c.withSigner s) = .error e :=
        Invocation.signed_of_request_eq_error ((v.request_withSigner c s).trans made)
      simp only [Invocation.call_eq, Invocation.networkAfter, unsigned, and_self]
  | ok r =>
      have same := redacted_run_setHeader p q c.agent net r
      have outcome := congrArg Http.Exchange.outcome same
      have network := congrArg Http.Exchange.network same
      have sent := congrArg Http.Exchange.sent same
      simp only [Http.Exchange.redacted] at outcome network sent
      constructor
      · simp only [Invocation.call_eq, Invocation.signed_plaintext made, Call.redacted,
          agent_withSigner, outcome, sent, report, Http.Request.method_setHeader,
          Http.Request.url_setHeader]
      · simp only [Invocation.networkAfter, Invocation.signed_plaintext made, agent_withSigner,
          network]

/-! ## Clients for two keys -/

namespace Setup

/-- Another choice of signer makes the same client with that signer, or fails in the same way. -/
theorem client_withSigner_eq (s : Setup) (files : Files) (signer : Signer) :
    (s.withSigner signer).client files = (s.client files).map (·.withSigner signer) := by
  have trust : (s.withSigner signer).checkTrust files = s.checkTrust files := rfl
  have agent : (s.withSigner signer).agent = s.agent := rfl
  unfold client
  rw [trust, agent]
  cases s.checkTrust files with
  | error e => rfl
  | ok trusted =>
      rw [ok_bind, ok_bind]
      by_cases named : Http.Header.isValue s.agent.name = true
      · rw [if_pos named, if_pos named]
        rfl
      · rw [if_neg named, if_neg named]
        rfl

/-- A client is made with another signer, should the choices be made, as it is without. -/
theorem buildIfOk_map_withSigner (files : Files) (chosen : Except Error Setup) (signer : Signer) :
    buildIfOk files (chosen.map (·.withSigner signer)) =
      ⟨(buildIfOk files chosen).result.map (·.withSigner signer),
        (buildIfOk files chosen).events⟩ := by
  cases chosen with
  | error e => rfl
  | ok s => exact congrArg (Made.mk · s.events) (s.client_withSigner_eq files signer)

end Setup

/-- The client for an API key is made as the client without one is, and is that client with the
signature for the key. -/
theorem authenticated_eq {key : String} {p : OAuth.Plaintext}
    (accepted : OAuth.Plaintext.ofKey key = .ok p) (files : Files) (base : String) :
    authenticated files base key =
      ⟨(anonymous files base).result.map (·.withSigner (.plaintext p)),
        (anonymous files base).events⟩ := by
  unfold authenticated
  rw [accepted, anonymous, ← Setup.buildIfOk_map_withSigner, ok_bind]
  cases Setup.ofBase base <;> rfl

/-- What is seen of a client for an API key is the same for all keys. -/
theorem observed_authenticated_eq {key₁ key₂ : String} {p q : OAuth.Plaintext}
    (accepted₁ : OAuth.Plaintext.ofKey key₁ = .ok p)
    (accepted₂ : OAuth.Plaintext.ofKey key₂ = .ok q) (files : Files) (base : String)
    (net : Http.Network) (turns : List Turn) :
    (authenticated files base key₁).observed net turns =
      (authenticated files base key₂).observed net turns := by
  rw [authenticated_eq accepted₁, authenticated_eq accepted₂]
  unfold Made.observed
  cases (anonymous files base).result with
  | error e => simp only [Except.map]
  | ok c => simp only [Except.map, (alike_plaintext p q c).redacted_session]

end Sessions

/-- Two keys with different signatures, a read that is redirected elsewhere and a removal that is
not answered. -/
theorem observed_authenticated_eq_elsewhere :
    ∃ (p q : OAuth.Plaintext) (net : Http.Network) (turns : List Turn),
      OAuth.Plaintext.ofKey "c:t:s" = .ok p ∧ OAuth.Plaintext.ofKey "x:y:z" = .ok q ∧
      p.authorization ≠ q.authorization ∧
      turns.map Turn.invocation = [.get "m/" "" .empty, .delete "m/"] ∧
      (authenticated (fun _ => .error .missing) "http://maas.local/" "c:t:s").observed net turns =
        (authenticated (fun _ => .error .missing) "http://maas.local/" "x:y:z").observed net
          turns := by
  let moved : Http.Response := ⟨302, [("location", "http://else.where/a")], []⟩
  let net : Http.Network := .plain [.response moved .complete, .response ⟨200, [], []⟩ .complete]
  let turns : List Turn :=
    [⟨id, .get "m/" "" .empty⟩, ⟨fun net => { net with answers := [.silent] }, .delete "m/"⟩]
  have accepted₁ : OAuth.Plaintext.ofKey "c:t:s" =
      .ok ⟨⟨"c", "", "t", "s"⟩, OAuth.defaultRealm, by decide⟩ := by rfl
  have accepted₂ : OAuth.Plaintext.ofKey "x:y:z" =
      .ok ⟨⟨"x", "", "y", "z"⟩, OAuth.defaultRealm, by decide⟩ := by rfl
  exact ⟨_, _, net, turns, accepted₁, accepted₂, by decide +kernel, rfl,
    observed_authenticated_eq accepted₁ accepted₂ _ _ net turns⟩

end Client

end RegionApi
