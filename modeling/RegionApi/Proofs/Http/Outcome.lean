import Mathlib.Logic.Relation
import RegionApi.Proofs.Http.Exchange

/-!
# How an exchange ends

The answers of a network lead a request along redirects to a last leg (`Leg.LeadsTo`). There the
exchange comes to a response whose body arrives in full (`Leg.Returns`), or it fails in one of four
ways (`Leg.Fails`). One of the two happens always (`Leg.returns_or_fails`), and what has become of
the exchange is that response (`Leg.outcome_of_returns`) or a fault (`Leg.outcome_of_fails`).
-/

namespace RegionApi.Http

/-- Whether an agent has to unpack the body of a response: it takes packed bodies, and the response
says that there is one. -/
structure Response.IsPacked (r : Response) (agent : Agent) : Prop where
  taken : agent.compression = true
  said : r.field? "content-encoding" = some "gzip"
  something : r.body ≠ []

/-- Whether a body is the one that a response announces, and arrives in full. Nothing is announced
where a status allows no body, and of a packed body what it unpacks to. -/
inductive Response.Arrives (r : Response) (agent : Agent) (net : Network) :
    Delivery → Bytes → Prop where
  | bodiless {d : Delivery} (none : Status.isBodiless r.status = true) : Arrives r agent net d []
  | plain (some : Status.isBodiless r.status = false) (bare : ¬r.IsPacked agent) :
      Arrives r agent net .complete r.body
  | packed {b : Bytes} (some : Status.isBodiless r.status = false) (packed : r.IsPacked agent)
      (unpacks : net.unpack r.body = .whole b) : Arrives r agent net .complete b

namespace Exchange

variable {agent : Agent} {net : Network} {r : Response} {d : Delivery} {b : Bytes}

theorem opened_of_isPacked (h : r.IsPacked agent) : opened agent net r = net.unpack r.body :=
  if_pos ⟨h.taken, h.said, h.something⟩

theorem opened_of_not_isPacked (h : ¬r.IsPacked agent) : opened agent net r = .whole r.body :=
  if_neg fun ⟨taken, said, something⟩ => h ⟨taken, said, something⟩

theorem delivered_of_isBodiless (none : Status.isBodiless r.status = true) :
    delivered agent net r d = .ok { r with body := [] } := if_pos none

theorem delivered_of_opened (some : Status.isBodiless r.status = false)
    (whole : opened agent net r = .whole b) :
    delivered agent net r .complete = .ok { r with body := b } := by
  unfold delivered
  rw [if_neg (Bool.eq_false_iff.mp some), whole]

theorem delivered_of_arrives (h : r.Arrives agent net d b) :
    delivered agent net r d = .ok { r with body := b } := by
  cases h with
  | bodiless none => exact delivered_of_isBodiless none
  | plain some bare => exact delivered_of_opened some (opened_of_not_isPacked bare)
  | packed some packed unpacks =>
      exact delivered_of_opened some ((opened_of_isPacked packed).trans unpacks)

/-- A complete body arrives if it can be opened. -/
theorem arrives_of_opened (some : Status.isBodiless r.status = false)
    (whole : opened agent net r = .whole b) : r.Arrives agent net .complete b := by
  by_cases packed : r.IsPacked agent
  · exact .packed some packed ((opened_of_isPacked packed).symm.trans whole)
  · rw [opened_of_not_isPacked packed] at whole
    cases whole
    exact .plain some packed

theorem exists_fault_of_not_arrives (h : ∀ b, ¬r.Arrives agent net d b) :
    ∃ fault, delivered agent net r d = .error fault := by
  have some : Status.isBodiless r.status = false :=
    Bool.eq_false_iff.mpr fun none => h [] (.bodiless none)
  unfold delivered
  rw [if_neg (Bool.eq_false_iff.mp some)]
  split
  · rename_i body whole
    exact absurd (arrives_of_opened some whole) (h body)
  all_goals exact ⟨_, rfl⟩

end Exchange

/-- A hop that is about to be sent: by whom, how many redirects are left, and the network it
meets. -/
structure Leg where
  agent : Agent
  left : Nat
  net : Network
  hop : Hop

namespace Leg

variable [HostNames] {l m : Leg} {r : Response} {d : Delivery} {status : Nat} {body : Bytes}

/-- The first leg of a request. -/
def start (agent : Agent) (net : Network) (own : Request) : Leg :=
  ⟨agent, Exchange.redirectLimit, net, .start agent own⟩

/-- What becomes of a leg, faults being told with a URL. -/
def exchange (told : Url) (l : Leg) : Exchange :=
  Exchange.travel l.agent told l.left l.net l.hop

theorem exchange_start (agent : Agent) (net : Network) (own : Request) :
    (start agent net own).exchange own.url = Exchange.run agent net own := rfl

/-! ## Legs and their answers -/

/-- Whether a leg gets to a server, and the server answers with a response. -/
structure Answered (l : Leg) (r : Response) (d : Delivery) : Prop where
  goes : l.net.carries l.hop.url = true
  answer : l.net.next.1 = .response r d

/-- Whether the answer to a leg is a redirect to the next one. -/
inductive Redirects : Leg → Leg → Prop where
  | onward {agent : Agent} {left : Nat} {net : Network} {hop : Hop} {r : Response} {d : Delivery}
      {target : Url} (answered : Answered ⟨agent, left + 1, net, hop⟩ r d)
      (there : hop.target? r = some target) :
      Redirects ⟨agent, left + 1, net, hop⟩
        ⟨agent, left, net.next.2, hop.redirected r.status target⟩

/-- Whether redirects lead from a leg to another, perhaps none. -/
def LeadsTo : Leg → Leg → Prop := Relation.ReflTransGen Redirects

/-- Whether a leg comes to a response of a status with a complete body in the end: the first one
that is no redirect to be followed. -/
def Returns (l : Leg) (status : Nat) (body : Bytes) : Prop :=
  ∃ last r d, l.LeadsTo last ∧ last.Answered r d ∧ last.hop.target? r = none ∧
    r.status = status ∧ r.Arrives last.agent last.net d body

/-- The ways in which a leg comes to no such response. -/
inductive Fails (l : Leg) : Prop where
  /-- No connection to a server comes about, at first or behind a redirect. -/
  | unreached {last : Leg} (led : l.LeadsTo last) (stays : last.net.carries last.hop.url = false)
  /-- A server is reached, but sends no response. -/
  | unanswered {last : Leg} (led : l.LeadsTo last) (goes : last.net.carries last.hop.url = true)
      (no : ∀ r d, last.net.next.1 ≠ .response r d)
  /-- A redirect comes where no more are followed. -/
  | endless {last : Leg} {r : Response} {d : Delivery} {target : Url} (led : l.LeadsTo last)
      (spent : last.left = 0) (answered : last.Answered r d)
      (there : last.hop.target? r = some target)
  /-- The body of the response does not arrive in full. -/
  | broken {last : Leg} {r : Response} {d : Delivery} (led : l.LeadsTo last)
      (answered : last.Answered r d) (here : last.hop.target? r = none)
      (partly : ∀ b, ¬r.Arrives last.agent last.net d b)

/-- A redirect returns what the next leg returns. -/
theorem Redirects.returns (step : l.Redirects m) (h : m.Returns status body) :
    l.Returns status body := by
  obtain ⟨last, r, d, led, answered, here, eq, arrives⟩ := h
  exact ⟨last, r, d, .head step led, answered, here, eq, arrives⟩

/-- A redirect fails where the next leg does. -/
theorem Redirects.fails (step : l.Redirects m) (h : m.Fails) : l.Fails := by
  cases h with
  | unreached led stays => exact .unreached (.head step led) stays
  | unanswered led goes no => exact .unanswered (.head step led) goes no
  | endless led spent answered there => exact .endless (.head step led) spent answered there
  | broken led answered here partly => exact .broken (.head step led) answered here partly

/-- A leg whose answer leads nowhere else returns it, or fails to get its body. -/
theorem Answered.returns_or_fails (h : l.Answered r d) (here : l.hop.target? r = none) :
    (∃ status body, l.Returns status body) ∨ l.Fails := by
  by_cases arrives : ∃ b, r.Arrives l.agent l.net d b
  · obtain ⟨b, arrives⟩ := arrives
    exact .inl ⟨r.status, b, l, r, d, .refl, h, here, rfl, arrives⟩
  · exact .inr (.broken .refl h here (not_exists.mp arrives))

/-- A leg returns a response or fails if the next one, should there be one, does. -/
theorem returns_or_fails_of_onward
    (onward : ∀ m, l.Redirects m → (∃ status body, m.Returns status body) ∨ m.Fails) :
    (∃ status body, l.Returns status body) ∨ l.Fails := by
  cases goes : l.net.carries l.hop.url with
  | false => exact .inr (.unreached .refl goes)
  | true =>
      by_cases answer : ∃ r d, l.net.next.1 = .response r d
      · obtain ⟨r, d, answer⟩ := answer
        have answered : l.Answered r d := ⟨goes, answer⟩
        cases there : l.hop.target? r with
        | none => exact answered.returns_or_fails there
        | some target =>
            obtain ⟨agent, left, net, hop⟩ := l
            cases left with
            | zero => exact .inr (.endless .refl rfl answered there)
            | succ left =>
                have step := Redirects.onward answered there
                rcases onward _ step with ⟨s, b, h⟩ | h
                · exact .inl ⟨s, b, step.returns h⟩
                · exact .inr (step.fails h)
      · exact .inr (.unanswered .refl goes fun r d eq => answer ⟨r, d, eq⟩)

/-- A leg returns a response, or it fails. -/
theorem returns_or_fails (l : Leg) : (∃ status body, l.Returns status body) ∨ l.Fails := by
  obtain ⟨agent, left, net, hop⟩ := l
  -- Each redirect takes one from those that are left.
  induction left generalizing net hop with
  | zero =>
      apply returns_or_fails_of_onward
      rintro m ⟨⟩
  | succ left ih =>
      apply returns_or_fails_of_onward
      rintro m ⟨⟩
      exact ih _ _

/-! ## What becomes of a leg -/

/-- A leg that is not answered with a response ends in a fault. -/
theorem outcome_of_not_answered (told : Url) (h : ∀ r d, ¬l.Answered r d) :
    ∃ fault, (l.exchange told).outcome = .error fault := by
  have travels := Exchange.travels_travel l.agent told l.left l.net l.hop
  rw [← exchange] at travels
  generalize l.exchange told = e at travels
  obtain ⟨agent, left, net, hop⟩ := l
  cases travels with
  | stuck fault stays told => exact ⟨fault, rfl⟩
  | lost fault a goes answer told => exact ⟨fault, rfl⟩
  | answered r d goes answer here => exact absurd ⟨goes, congrArg Prod.fst answer⟩ (h r d)
  | endless r d target goes answer there => exact ⟨_, rfl⟩
  | followed r d target goes answer there onward =>
      exact absurd ⟨goes, congrArg Prod.fst answer⟩ (h r d)

/-- An answered leg ends with the answer, or goes on where it leads. -/
theorem exchange_of_answered (told : Url) (h : l.Answered r d) :
    l.exchange told =
      match l.hop.target? r, l.left with
      | none, _ => ⟨[l.hop.sent], Exchange.delivered l.agent l.net r d, l.net.next.2⟩
      | some _, 0 => ⟨[l.hop.sent], .error (.endless l.hop.url.withoutFragment), l.net.next.2⟩
      | some target, left + 1 =>
        let next : Leg := ⟨l.agent, left, l.net.next.2, l.hop.redirected r.status target⟩
        (next.exchange told).after l.hop.sent := by
  obtain ⟨sendable, reaches⟩ := Bool.and_eq_true_iff.mp h.goes
  have next : l.net.next = (.response r d, l.net.next.2) := Prod.ext h.answer rfl
  rw [exchange, Exchange.travel, sendable, reaches, next]
  rfl

theorem exchange_of_redirects (told : Url) (step : l.Redirects m) :
    l.exchange told = (m.exchange told).after l.hop.sent := by
  cases step with
  | onward answered there =>
      rw [exchange_of_answered told answered]
      simp only [there]

/-- Redirects do not change what becomes of an exchange in the end. -/
theorem outcome_of_leadsTo (told : Url) (led : l.LeadsTo m) :
    (l.exchange told).outcome = (m.exchange told).outcome := by
  induction led using Relation.ReflTransGen.head_induction_on with
  | refl => rfl
  | head step led ih =>
      rw [exchange_of_redirects told step]
      exact ih

/-- What a leg returns is what becomes of it. -/
theorem outcome_of_returns (told : Url) (h : l.Returns status body) :
    ∃ r, (l.exchange told).outcome = .ok r ∧ r.status = status ∧ r.body = body := by
  obtain ⟨last, r, d, led, answered, here, rfl, arrives⟩ := h
  refine ⟨{ r with body }, ?_, rfl, rfl⟩
  rw [outcome_of_leadsTo told led, exchange_of_answered told answered, here,
    Exchange.delivered_of_arrives arrives]

/-- A leg that fails becomes a fault. -/
theorem outcome_of_fails (told : Url) (h : l.Fails) :
    ∃ fault, (l.exchange told).outcome = .error fault := by
  cases h with
  | unreached led stays =>
      rw [outcome_of_leadsTo told led]
      exact outcome_of_not_answered told fun r d answered => by simp [answered.goes] at stays
  | unanswered led goes no =>
      rw [outcome_of_leadsTo told led]
      exact outcome_of_not_answered told fun r d answered => no r d answered.answer
  | @endless last r d target led spent answered there =>
      refine ⟨.endless last.hop.url.withoutFragment, ?_⟩
      rw [outcome_of_leadsTo told led, exchange_of_answered told answered, there, spent]
  | broken led answered here partly =>
      rw [outcome_of_leadsTo told led, exchange_of_answered told answered, here]
      exact Exchange.exists_fault_of_not_arrives partly

end Leg

end RegionApi.Http
