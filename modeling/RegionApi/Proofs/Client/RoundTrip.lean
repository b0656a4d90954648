import RegionApi.Proofs.Client.FirstRequest
import RegionApi.Proofs.Client.Invocation
import RegionApi.Proofs.Except
import RegionApi.Proofs.Http.Exchange

/-!
# Round trips

A call is meant to be one round trip (`IsRoundTrip`): it sends one request at most, success means
that the server reports success for that very request, and an answer that asks to look elsewhere is
told to the caller. `isRoundTrip_iff` says that this is so exactly for the calls whose first answer
is not a redirect, as clients follow redirects.
-/

namespace RegionApi

/-! ## Telling faults apart -/

namespace Http.Fault

theorem head?_toList_append {s : String} {c : Char} (h : s.toList.head? = some c) (t : String) :
    (s ++ t).toList.head? = some c := by
  rw [String.toList_append, List.head?_append, h, Option.some_or]

/-- What is told when nothing can be sent begins with one of two letters. -/
theorem head?_message_of_stuck {fault : Fault} {u first : Url}
    (h : fault = .unsendable u ∨ fault = .unreachable first) :
    fault.message.toList.head? = some 'b' ∨ fault.message.toList.head? = some 'c' := by
  rcases h with rfl | rfl
  · refine .inl (head?_toList_append (head?_toList_append (head?_toList_append ?_ _) _) _)
    decide
  · refine .inr (head?_toList_append ?_ _)
    decide

/-- What is told about a body that does not arrive begins with one of two others. -/
theorem head?_message_of_delivered {agent : Agent} {net : Network} {fault : Fault} {r : Response}
    {delivery : Delivery} (h : Exchange.delivered agent net r delivery = .error fault) :
    fault.message.toList.head? = some 'e' ∨ fault.message.toList.head? = some 'r' := by
  rcases Exchange.delivered_cases agent net r delivery with ⟨body, ok⟩ | error | error
  · rw [ok] at h
    cases h
  · rw [error] at h
    cases h
    exact .inl (by decide)
  · rw [error] at h
    cases h
    exact .inr (by decide)

theorem toError_ne_of_delivered {agent : Agent} {net : Network} {stuck fault : Fault}
    {u first : Url} {r : Response} {delivery : Delivery}
    (before : stuck = .unsendable u ∨ stuck = .unreachable first)
    (body : Exchange.delivered agent net r delivery = .error fault) :
    stuck.toError ≠ fault.toError := by
  intro same
  have texts : stuck.message = fault.message := by
    simpa only [toError, Error.transport.injEq] using same
  have letters := head?_message_of_stuck before
  rw [texts] at letters
  rcases letters with h | h <;> rcases head?_message_of_delivered body with h' | h' <;>
  · rw [h] at h'
    exact absurd h' (by decide)

end Http.Fault

namespace Client.Invocation

section Calls

variable [HostNames]

/-! ## Round trips and redirects -/

/-- Whether a call is one round trip. -/
structure IsRoundTrip (v : Invocation) (c : Client) (net : Http.Network) : Prop where
  /-- It sends one request at most. -/
  single : (v.call c net).sent.length ≤ 1
  /-- Success is that of the server for this very request, and comes with the body it sends. -/
  answered : ∀ b, (v.call c net).result = .ok b → ∃ own r delivery arrived,
    v.signed c = .ok own ∧ (v.call c net).sent = [(Http.Hop.start c.agent own).sent] ∧
    net.next.1 = .response r delivery ∧ Http.Status.isSuccess r.status = true ∧
    Http.Exchange.delivered c.agent net r delivery = .ok arrived ∧ b = v.told arrived.body
  /-- An answer that asks to look elsewhere is told as an error, with its status and body. -/
  elsewhere : ∀ r delivery, (v.call c net).sent ≠ [] → net.next.1 = .response r delivery →
    300 ≤ r.status → r.status ≤ 399 →
    (v.call c net).result = .error
      (match Http.Exchange.delivered c.agent net r delivery with
      | .ok arrived => .api r.status (Http.Status.line r.status) arrived.body
      | .error fault => fault.toError)

/-- Whether the first answer to a call is a redirect to some place. -/
def RedirectsTo (v : Invocation) (c : Client) (net : Http.Network) (target : Url) : Prop :=
  ∃ own, v.signed c = .ok own ∧ (Http.Hop.start c.agent own).RedirectsTo net target

theorem isRoundTrip_of_signed_eq_error {v : Invocation} {c : Client} {e : Error}
    (refused : v.signed c = .error e) (net : Http.Network) : v.IsRoundTrip c net := by
  have call := call_of_signed_eq_error refused net
  refine ⟨?_, ?_, ?_⟩
  · rw [call]
    exact Nat.zero_le 1
  · intro b ok
    rw [call] at ok
    cases ok
  · intro r delivery sent
    rw [call] at sent
    exact absurd rfl sent

/-- A call that is not redirected is one round trip. -/
theorem isRoundTrip_of_forall_not_redirectsTo {v : Invocation} {c : Client}
    {net : Http.Network} (no : ∀ target, ¬v.RedirectsTo c net target) : v.IsRoundTrip c net := by
  cases signs : v.signed c with
  | error e => exact isRoundTrip_of_signed_eq_error signs net
  | ok own =>
      obtain ⟨e, travels, sent, result⟩ := exists_travels signs net
      rcases travels.of_forall_not_redirectsTo fun target there => no target ⟨own, signs, there⟩
        with ⟨none, fault, outcome⟩ | ⟨one, outcome⟩
      · rw [none] at sent
        rw [outcome] at result
        refine ⟨by rw [sent]; exact Nat.zero_le 1, ?_, fun r delivery some => absurd sent some⟩
        intro b ok
        rw [result] at ok
        cases ok
      · rw [one] at sent
        rw [outcome] at result
        refine ⟨by rw [sent]; exact Nat.le_refl 1, ?_, ?_⟩
        · intro b ok
          rw [result] at ok
          obtain ⟨body, classified, rfl⟩ := map_eq_ok.mp ok
          obtain ⟨arrived, concluded, success, rfl⟩ := classify_eq_ok classified
          obtain ⟨r, delivery, answer, delivered⟩ :=
            Http.Exchange.exists_response_of_concluded_eq_ok concluded
          rw [Http.Exchange.status_of_delivered_eq_ok delivered] at success
          exact ⟨own, r, delivery, arrived, signs, sent, answer, success, delivered, rfl⟩
        · intro r delivery _ answer least most
          rw [result, answer, Http.Exchange.concluded]
          cases delivered : Http.Exchange.delivered c.agent net r delivery with
          | error fault => rfl
          | ok arrived =>
              have status := Http.Exchange.status_of_delivered_eq_ok delivered
              have failure : Http.Status.isSuccess arrived.status = false :=
                Http.Status.isSuccess_eq_false (status ▸ least)
              rw [classify_of_isSuccess_eq_false failure, status]
              rfl

/-- A call that is redirected is not one round trip: it sends a second request, or tells that it
cannot instead of what it was answered. -/
theorem RedirectsTo.not_isRoundTrip {v : Invocation} {c : Client} {net : Http.Network}
    {target : Url} (h : v.RedirectsTo c net target) : ¬v.IsRoundTrip c net := by
  intro trip
  obtain ⟨own, signs, there⟩ := h
  obtain ⟨e, travels, sent, result⟩ := exists_travels signs net
  rcases travels.of_redirectsTo there with ⟨-, more⟩ | ⟨-, one, stuck, outcome, before⟩
  · rw [← sent] at more
    exact absurd (Nat.le_trans more trip.single) (by decide)
  · obtain ⟨-, r, delivery, answer, target⟩ := there
    obtain ⟨least, most⟩ :=
      Http.Status.bounds_of_isRedirect (Http.Hop.isRedirect_of_target? target)
    have some : (v.call c net).sent ≠ [] := by
      rw [sent, one]
      exact List.cons_ne_nil _ _
    have told := trip.elsewhere r delivery some answer least most
    rw [result, outcome] at told
    cases delivered : Http.Exchange.delivered c.agent net r delivery with
    | error fault =>
        rw [delivered] at told
        exact Http.Fault.toError_ne_of_delivered before delivered (Except.error.inj told)
    | ok arrived =>
        rw [delivered] at told
        cases Except.error.inj told

/-- A call sends more than one request exactly if it is redirected to where it can go. -/
theorem length_sent_le_one_iff (v : Invocation) (c : Client) (net : Http.Network) :
    (v.call c net).sent.length ≤ 1 ↔
      ∀ target, v.RedirectsTo c net target → net.carries target = false := by
  refine ⟨fun single target redirects => ?_, fun stays => ?_⟩
  · obtain ⟨own, signs, there⟩ := redirects
    obtain ⟨e, travels, sent, -⟩ := exists_travels signs net
    rcases travels.of_redirectsTo there with ⟨-, more⟩ | ⟨stays, -⟩
    · rw [← sent] at more
      exact absurd (Nat.le_trans more single) (by decide)
    · exact stays
  · by_cases redirected : ∃ target, v.RedirectsTo c net target
    · obtain ⟨target, own, signs, there⟩ := redirected
      obtain ⟨e, travels, sent, -⟩ := exists_travels signs net
      rcases travels.of_redirectsTo there with ⟨goes, -⟩ | ⟨-, one, -⟩
      · rw [stays target ⟨own, signs, there⟩] at goes
        cases goes
      · rw [sent, one]
        exact Nat.le_refl 1
    · exact (isRoundTrip_of_forall_not_redirectsTo fun target there =>
        redirected ⟨target, there⟩).single

/-- However often a call is redirected, it sends eleven requests at most. -/
theorem length_sent_le (v : Invocation) (c : Client) (net : Http.Network) :
    (v.call c net).sent.length ≤ 11 := by
  cases signs : v.signed c with
  | error e =>
      rw [call_of_signed_eq_error signs net]
      exact Nat.zero_le 11
  | ok own =>
      obtain ⟨e, travels, sent, -⟩ := exists_travels signs net
      rw [sent]
      exact travels.length_sent_le

/-- A call is one round trip exactly if its first answer is not a redirect, and sends more than one
request exactly if that redirect leads to where a request can get. -/
theorem isRoundTrip_iff (v : Invocation) (c : Client) (net : Http.Network) :
    (v.IsRoundTrip c net ↔ ∀ target, ¬v.RedirectsTo c net target) ∧
    ((v.call c net).sent.length ≤ 1 ↔
      ∀ target, v.RedirectsTo c net target → net.carries target = false) :=
  ⟨⟨fun trip _ there => there.not_isRoundTrip trip, isRoundTrip_of_forall_not_redirectsTo⟩,
    length_sent_le_one_iff v c net⟩

end Calls

/-- A removal that is answered by a redirect, and reported as a success of what it led to. -/
theorem not_isRoundTrip_loopback :
    ∃ net : Http.Network,
      net.next.1 = .response ⟨303, [("location", "/n/")], []⟩ .complete ∧
      ((delete "m/").call loopback net).result = .ok none ∧
      (((delete "m/").call loopback net).sent.map fun s => (s.method, s.url.path)) =
        [(.delete, .segments ["m", ""]), (.get, .segments ["n", ""])] ∧
      ¬(delete "m/").IsRoundTrip loopback net := by
  refine ⟨.plain [.response ⟨303, [("location", "/n/")], []⟩ .complete,
    .response ⟨200, [], []⟩ .complete], rfl, rfl, rfl, ?_⟩
  intro trip
  exact absurd trip.single (by decide)

end Client.Invocation

end RegionApi
