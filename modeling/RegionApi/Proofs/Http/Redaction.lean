import RegionApi.Proofs.Http.Exchange
import RegionApi.Proofs.Http.Message

/-!
# What depends on an authorization

Redaction blots out the values of authorizations and leaves everything else. Every step of an
exchange commutes with it, so an exchange of a redacted hop is the exchange of the hop, redacted
(`Exchange.redacted_travel`): what an authorization says has no influence on anything else.
-/

namespace RegionApi.Http

/-! ## Header fields -/

/-- The field without its value if it is an authorization. -/
def Header.redacted (h : Header) : Header :=
  if h.name = "authorization" then { h with value := "" } else h

@[simp] theorem Header.name_redacted (h : Header) : h.redacted.name = h.name := by
  unfold redacted
  split <;> rfl

theorem Header.redacted_of_name_ne {h : Header} (other : h.name ≠ "authorization") :
    h.redacted = h := if_neg other

namespace Headers

/-- The fields without the values of authorizations. -/
def redacted (hs : Headers) : Headers := hs.map Header.redacted

theorem redacted_erase (hs : Headers) (name : String) :
    redacted (erase hs name) = erase (redacted hs) name := by
  simp only [redacted, erase, List.filter_map, Function.comp_def, Header.name_redacted]

theorem redacted_ite_erase (b : Bool) (hs : Headers) (name : String) :
    redacted (if b then erase hs name else hs) =
      if b then erase (redacted hs) name else redacted hs := by
  cases b with
  | false => rfl
  | true => exact redacted_erase hs name

theorem redacted_append (hs : Headers) (h : Header) :
    redacted (append hs h) = append (redacted hs) h.redacted := List.map_append

theorem redacted_set (hs : Headers) (h : Header) :
    redacted (set hs h) = set (redacted hs) h.redacted := by
  rw [set, set, redacted_append, redacted_erase, Header.name_redacted]

theorem any_redacted (hs : Headers) (name : String) :
    (redacted hs).any (fun h => h.name = name) = hs.any fun h => h.name = name := by
  simp only [redacted, List.any_map, Function.comp_def, Header.name_redacted]

end Headers

/-- There is nothing to redact where no field is an authorization. -/
theorem Headers.redacted_eq_self {hs : Headers} (others : ∀ h ∈ hs, h.name ≠ "authorization") :
    redacted hs = hs :=
  calc hs.map Header.redacted
    _ = hs.map id := List.map_congr_left fun h mem => Header.redacted_of_name_ne (others h mem)
    _ = hs := List.map_id hs

/-- What an agent adds to the fields of a request does not depend on authorizations. -/
theorem Agent.redacted_complete (a : Agent) (hs : Headers) :
    Headers.redacted (a.complete hs) = a.complete (Headers.redacted hs) := by
  have foreign : "authorization" ∉ ["accept", "user-agent", "accept-encoding"] := by decide
  have added : Headers.redacted (a.headers.filter fun h => !hs.any (·.name = h.name)) =
      a.headers.filter fun h => !hs.any (·.name = h.name) :=
    Headers.redacted_eq_self fun h mem =>
      name_ne_of_mem_headers foreign h (List.mem_filter.mp mem).1
  calc Headers.redacted (a.complete hs)
    _ = Headers.redacted hs ++
        Headers.redacted (a.headers.filter fun h => !hs.any (·.name = h.name)) := List.map_append
    _ = a.complete (Headers.redacted hs) := by
      rw [added, complete]
      simp only [Headers.any_redacted]

/-! ## Requests on their way -/

/-- The request without the values of authorizations. -/
def Request.redacted (r : Request) : Request := { r with headers := Headers.redacted r.headers }

/-- What went over the wire, without the values of authorizations. -/
def Sent.redacted (s : Sent) : Sent := { s with headers := Headers.redacted s.headers }

/-- Requests that differ in the value of an authorization alone are redacted to the same. -/
theorem Request.redacted_setHeader (r : Request) (a b : String) (sensitive : Bool) :
    (r.setHeader ⟨"authorization", a, sensitive⟩).redacted =
      (r.setHeader ⟨"authorization", b, sensitive⟩).redacted := by
  simp only [redacted, headers_setHeader, Headers.redacted_set, Header.redacted, if_true]
  rfl

namespace Hop

/-- The hop without the values of authorizations. -/
def redacted (h : Hop) : Hop := { h with headers := Headers.redacted h.headers }

theorem redacted_start (a : Agent) (r : Request) :
    (start a r).redacted = start a r.redacted := by
  simp only [redacted, start, Request.redacted, Agent.redacted_complete]

theorem redacted_sent (h : Hop) : h.sent.redacted = h.redacted.sent := by
  have shown := Headers.redacted_ite_erase h.bare h.headers "authorization"
  unfold sent redacted Sent.redacted
  cases h.referer with
  | none => simp only [shown]
  | some origin =>
      simp only [Headers.redacted_set, shown]
      rfl

theorem redacted_redirected (h : Hop) (status : Nat) (target : Url) :
    (h.redirected status target).redacted = h.redacted.redirected status target := by
  have kept := Headers.redacted_ite_erase (h.isRewritten status) h.headers "content-type"
  simp only [redacted, redirected, kept]
  rfl

end Hop

/-! ## Exchanges -/

namespace Exchange

/-- The exchange without the values of authorizations. -/
def redacted (e : Exchange) : Exchange := { e with sent := e.sent.map Sent.redacted }

theorem redacted_after (s : Sent) (e : Exchange) :
    (after s e).redacted = after s.redacted e.redacted := rfl

variable [HostNames]

/-- A hop is sent as its redacted form is if the next one, should there be one, is. -/
theorem redacted_travel_of_onward {agent : Agent} {first : Url} {left : Nat} {net : Network}
    {hop : Hop} (onward : ∀ left', left = left' + 1 → ∀ rest next,
      (travel agent first left' rest next).redacted =
        travel agent first left' rest next.redacted) :
    (travel agent first left net hop).redacted = travel agent first left net hop.redacted := by
  have url : hop.redacted.url = hop.url := rfl
  have target (r : Response) : hop.redacted.target? r = hop.target? r := rfl
  unfold travel
  rw [url]
  cases isSendable hop.url with
  | false => rfl
  | true =>
      cases net.reaches hop.url with
      | false => rfl
      | true =>
          rcases net.next with ⟨answer, rest⟩
          cases answer with
          | closed => simp [redacted, Hop.redacted_sent]
          | garbled => simp [redacted, Hop.redacted_sent]
          | silent => simp [redacted, Hop.redacted_sent]
          | response r delivery =>
              simp only [target]
              cases hop.target? r with
              | none => simp [redacted, Hop.redacted_sent]
              | some there =>
                  cases left with
                  | zero => simp [redacted, Hop.redacted_sent]
                  | succ left =>
                      change (after hop.sent (travel agent first left rest _)).redacted =
                        after hop.redacted.sent (travel agent first left rest _)
                      rw [redacted_after, onward left rfl, Hop.redacted_redirected,
                        Hop.redacted_sent]

/-- Redaction commutes with sending a hop. -/
theorem redacted_travel (agent : Agent) (first : Url) (left : Nat) (net : Network) (hop : Hop) :
    (travel agent first left net hop).redacted = travel agent first left net hop.redacted := by
  induction left generalizing net hop with
  | zero =>
      apply redacted_travel_of_onward
      rintro left' ⟨⟩
  | succ left ih =>
      apply redacted_travel_of_onward
      rintro left' ⟨⟩
      exact ih

theorem redacted_run (agent : Agent) (net : Network) (r : Request) :
    (run agent net r).redacted = run agent net r.redacted := by
  rw [run, run, redacted_travel, Hop.redacted_start]
  rfl

end Exchange

end RegionApi.Http
