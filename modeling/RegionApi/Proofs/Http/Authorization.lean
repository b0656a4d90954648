import Mathlib.Data.List.Chain
import RegionApi.Proofs.Http.Exchange
import RegionApi.Proofs.Http.Message

/-!
# Where an authorization travels

Every hop of an exchange keeps the authorization it began with, but shows it only where the hop
stays on the server of the one before (`Travels.isChain_sent`). What a hop shows is thus decided by
its predecessor alone, and not by the server that the exchange began with.
-/

namespace RegionApi

/-! ## Servers -/

namespace Url

theorem sameServer_iff {u v : Url} :
    u.sameServer v = true ↔ u.host? = v.host? ∧ u.effectivePort? = v.effectivePort? := by
  rw [sameServer, Bool.and_eq_true, decide_eq_true_iff, decide_eq_true_iff]

@[simp] theorem sameServer_self (u : Url) : u.sameServer u = true := sameServer_iff.mpr ⟨rfl, rfl⟩

/-- What a URL loses on the wire has no part in its server. -/
@[simp] theorem sameServer_wire (u v : Url) :
    u.withoutUserInfo.withoutFragment.sameServer v.withoutUserInfo.withoutFragment =
      u.sameServer v := by
  unfold sameServer host? effectivePort? port? withoutUserInfo withoutFragment
  cases u.authority <;> cases v.authority <;> rfl

end Url

namespace Http

/-! ## Hops -/

namespace Hop

@[simp] theorem url_sent (h : Hop) : h.sent.url = h.url.withoutUserInfo.withoutFragment := rfl

/-- The first hop has the authorization of the request; the agent adds none. -/
theorem authorization_start (a : Agent) (r : Request) :
    Headers.values (start a r).headers "authorization" =
      Headers.values r.headers "authorization" := by
  have foreign : "authorization" ∉ ["accept", "user-agent", "accept-encoding"] := by decide
  exact Agent.values_complete foreign r.headers

/-- A hop shows its authorization unless that is held back. -/
theorem authorization_sent (h : Hop) :
    Headers.values h.sent.headers "authorization" =
      if h.bare then [] else Headers.values h.headers "authorization" := by
  have shown : Headers.values h.sent.headers "authorization" =
      Headers.values (if h.bare then h.headers.erase "authorization" else h.headers)
        "authorization" := by
    unfold sent
    cases h.referer with
    | none => rfl
    | some origin =>
        have other : "referer" ≠ "authorization" := by decide
        rw [Headers.values_set, if_neg other]
  rw [shown]
  split
  · rw [Headers.values_erase, if_pos rfl]
  · rfl

/-- A redirect keeps the authorization, be it shown or not. -/
theorem authorization_redirected (h : Hop) (status : Nat) (target : Url) :
    Headers.values (h.redirected status target).headers "authorization" =
      Headers.values h.headers "authorization" := by
  simp only [redirected]
  split
  · rw [Headers.values_erase, if_neg (by decide)]
  · rfl

/-- Behind a redirect the authorization is shown on the same server, and held back on another. -/
theorem authorization_sent_redirected (h : Hop) (status : Nat) (target : Url) :
    Headers.values (h.redirected status target).sent.headers "authorization" =
      if h.url.sameServer target then Headers.values h.headers "authorization" else [] := by
  rw [authorization_sent, authorization_redirected]
  by_cases same : h.url.sameServer target = true <;> simp [redirected, same]

end Hop

/-! ## Exchanges -/

/-- Whether a request that follows another has its authorization exactly if it stays on the server
of that one. -/
def Sent.Passes (authorization : List String) (s t : Sent) : Prop :=
  Headers.values t.headers "authorization" =
    if s.url.sameServer t.url then authorization else []

/-- From each request of an exchange to the next one the authorization passes by the same rule. -/
theorem Exchange.Travels.isChain_sent [HostNames] {agent : Agent} {first : Url} {left : Nat}
    {net : Network} {hop : Hop} {e : Exchange} (h : Travels agent first left net hop e) :
    e.sent.IsChain (Sent.Passes (Headers.values hop.headers "authorization")) := by
  induction h with
  | stuck fault stays told => exact List.isChain_nil
  | lost fault a goes answer told => exact List.isChain_singleton _
  | answered r d goes answer here => exact List.isChain_singleton _
  | endless r d target goes answer there => exact List.isChain_singleton _
  | @followed left net rest hop e r d target goes answer there onward ih =>
      rw [Hop.authorization_redirected] at ih
      refine List.isChain_cons.mpr ⟨?_, ih⟩
      intro next mem
      rw [onward.head?_sent] at mem
      split at mem
      · cases mem
        rw [Sent.Passes, Hop.authorization_sent_redirected, Hop.url_sent, Hop.url_sent,
          Url.sameServer_wire]
        rfl
      · cases mem

end Http

end RegionApi
