import RegionApi.Proofs.Client.Authentication
import RegionApi.Proofs.Http.Authorization

/-!
# Where the credentials of a call go

A call is signed once, and each request that a redirect brings has the signature exactly if it stays
on the server of the request before (`isChain_sent_call`). So the credentials stay with the server
that the call was meant for (`KeepsCredentials`) exactly if no redirect of another server leads to
that other server again (`keepsCredentials_iff`).
-/

namespace RegionApi.Client

/-- Whether no request but those to the server of the first one has credentials. -/
def KeepsCredentials (sent : List Http.Sent) : Prop :=
  ∀ first ∈ sent.head?, ∀ s ∈ sent, first.url.sameServer s.url = false →
    Http.Headers.values s.headers "authorization" = []

instance (sent : List Http.Sent) : Decidable (KeepsCredentials sent) :=
  inferInstanceAs (Decidable (∀ first ∈ sent.head?, ∀ s ∈ sent,
    first.url.sameServer s.url = false → Http.Headers.values s.headers "authorization" = []))

/-- Whether no request on another server than the first one follows a request on that server. -/
def LeavesAtOnce (sent : List Http.Sent) : Prop :=
  ∀ first ∈ sent.head?, sent.IsChain fun s t =>
    s.url.sameServer t.url = true → first.url.sameServer t.url = true

section Passes

variable {authorization : List String} {sent : List Http.Sent}

/-- If the authorization passes by the rule, and no request that is away from the server of `first`
follows another there, then no request that follows one has it away from that server. -/
theorem isChain_unauthorized {first : Http.Sent}
    (passes : sent.IsChain (Http.Sent.Passes authorization))
    (leaves : sent.IsChain fun s t =>
      s.url.sameServer t.url = true → first.url.sameServer t.url = true) :
    sent.IsChain fun _ t => first.url.sameServer t.url = false →
      Http.Headers.values t.headers "authorization" = [] := by
  induction passes with
  | nil => exact List.isChain_nil
  | singleton s => exact List.isChain_singleton s
  | cons_cons passed rest ih =>
      obtain ⟨left, leaves⟩ := List.isChain_cons_cons.mp leaves
      refine List.isChain_cons_cons.mpr ⟨fun other => ?_, ih leaves⟩
      rw [passed, if_neg fun same => by simp [left same] at other]

theorem keepsCredentials_of_leavesAtOnce
    (passes : sent.IsChain (Http.Sent.Passes authorization)) (leaves : LeavesAtOnce sent) :
    KeepsCredentials sent := by
  intro first head
  have held := isChain_unauthorized passes (leaves first head)
  refine held.induction _ sent (fun s t held _ => held) ?_
  intro some other
  obtain rfl : first = sent.head some :=
    Option.some.inj (head.symm.trans (List.head?_eq_some_head some))
  simp at other

theorem leavesAtOnce_of_keepsCredentials (some : authorization ≠ [])
    (passes : sent.IsChain (Http.Sent.Passes authorization)) (keeps : KeepsCredentials sent) :
    LeavesAtOnce sent := by
  intro first head
  refine List.IsChain.imp_of_mem_imp ?_ passes
  intro s t _ mem passes same
  by_contra other
  have none := keeps first head t mem (Bool.eq_false_iff.mpr other)
  rw [passes, if_pos same] at none
  exact some none

end Passes

namespace Invocation

/-- The signature of a call passes from each of its requests to the next by one rule. -/
theorem isChain_sent_call [HostNames] (v : Invocation) (c : Client) (p : OAuth.Plaintext)
    (net : Http.Network) :
    (v.call (c.withSigner (.plaintext p)) net).sent.IsChain
      (Http.Sent.Passes [p.authorization]) := by
  cases made : v.request c with
  | error e =>
      rw [← request_withSigner v c (.plaintext p)] at made
      rw [call_of_signed_eq_error (signed_of_request_eq_error made)]
      exact List.isChain_nil
  | ok r =>
      obtain ⟨e, travels, sent, -⟩ := exists_travels (signed_plaintext made p) net
      have own : Http.Headers.values (Http.Hop.start (c.withSigner (.plaintext p)).agent
          (r.setHeader ⟨"authorization", p.authorization, true⟩)).headers "authorization" =
          [p.authorization] := by
        rw [Http.Hop.authorization_start, Http.Request.headers_setHeader, Http.Headers.values_set,
          if_pos rfl]
      rw [sent, ← own]
      exact travels.isChain_sent

/-- The credentials of a call stay with its server exactly if no request on another server follows
one on that server; for they are held back only where a request changes the server. -/
theorem keepsCredentials_iff [HostNames] (v : Invocation) (c : Client) (p : OAuth.Plaintext)
    (net : Http.Network) :
    (KeepsCredentials (v.call (c.withSigner (.plaintext p)) net).sent ↔
      LeavesAtOnce (v.call (c.withSigner (.plaintext p)) net).sent) ∧
    (v.call (c.withSigner (.plaintext p)) net).sent.IsChain
      (Http.Sent.Passes [p.authorization]) := by
  have passes := isChain_sent_call v c p net
  exact ⟨⟨leavesAtOnce_of_keepsCredentials (List.cons_ne_nil _ _) passes,
    keepsCredentials_of_leavesAtOnce passes⟩, passes⟩

/-- A client without credentials, as made for an address. -/
def remote : Client where
  base := ⟨"http", some ⟨"", none, .name "maas.local", none⟩, .segments [""], none, none⟩
  signer := .anonymous
  agent := ⟨Setup.defaultAgent, true⟩
  isRead := ⟨"http://maas.local/", by rfl⟩

/-- A network whose answers lead to another server, and on to another place of it. -/
def detour : Http.Network :=
  .plain [.response ⟨302, [("location", "http://else.where/a")], []⟩ .complete,
    .response ⟨302, [("location", "/b")], []⟩ .complete, .response ⟨200, [], []⟩ .complete]

/-- A read that is redirected to another server, and there once more: its third request has the
credentials again. -/
theorem not_keepsCredentials_elsewhere :
    ∃ (p : OAuth.Plaintext) (b : Client),
      OAuth.Plaintext.ofKey "c:t:s" = .ok p ∧
      (authenticated (fun _ => .error .missing) "http://maas.local/" "c:t:s").result = .ok b ∧
      (((get "m/" "" .empty).call b detour).sent.map fun s =>
          (s.url.host?, Http.Headers.values s.headers "authorization")) =
        [(some (.name "maas.local"), [p.authorization]), (some (.name "else.where"), []),
          (some (.name "else.where"), [p.authorization])] ∧
      ¬KeepsCredentials ((get "m/" "" .empty).call b detour).sent := by
  let p : OAuth.Plaintext := ⟨⟨"c", "", "t", "s"⟩, OAuth.defaultRealm, by decide⟩
  have accepted : OAuth.Plaintext.ofKey "c:t:s" = .ok p := by rfl
  have made : (anonymous (fun _ => .error .missing) "http://maas.local/").result = .ok remote := by
    rfl
  obtain ⟨-, authenticated⟩ := result_authenticated accepted made
  exact ⟨p, _, accepted, authenticated, by decide +kernel, by decide +kernel⟩

end Invocation

end RegionApi.Client
