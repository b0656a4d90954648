import RegionApi.Http.Exchange

/-!
# Exchanges, hop by hop

`Travels` says in rules what becomes of a hop, and `travels_travel` that sending follows them; what
holds of every exchange is then proved by cases or by induction over the rules. `head?_sent_run`
tells how an exchange begins and `length_sent_le` how long it can get. The responses of a network
are final ones (`Network.final_of_next`).
-/

namespace RegionApi.Http

/-- Whether a request for a URL gets to a server: it can be written to the wire, and a connection
comes about. -/
def Network.carries (n : Network) (u : Url) : Bool := isSendable u && n.reaches u

theorem Answer.final_of_understood {a : Answer} {r : Response} {delivery : Delivery}
    (final : a.isInterim = false) (h : a.understood = .response r delivery) :
    Status.isCode r.status = true ∧ Status.isInterim r.status = false := by
  cases a with
  | closed => cases h
  | garbled => cases h
  | silent => cases h
  | response r' delivery' =>
      by_cases code : Status.isCode r'.status = true
      · rw [understood, if_pos code] at h
        cases h
        exact ⟨code, final⟩
      · rw [understood, if_neg code] at h
        cases h

/-- A response that a network answers with has a status, and is not one that only tells that the
answer is still to come. -/
theorem Network.final_of_next {net : Network} {r : Response} {delivery : Delivery}
    (h : net.next.1 = .response r delivery) :
    Status.isCode r.status = true ∧ Status.isInterim r.status = false := by
  have first {a : Answer} {rest : List Answer}
      (left : net.answers.dropWhile Answer.isInterim = a :: rest) : a.isInterim = false := by
    have head := List.head_dropWhile_not Answer.isInterim (l := net.answers) (by simp [left])
    simpa only [left, List.head_cons] using head
  unfold next at h
  split at h
  · cases h
    decide
  · split at h
    · cases h
    · rename_i left
      exact Answer.final_of_understood (first left) h
    · rename_i left
      exact Answer.final_of_understood (first left) h

/-- Whether the next answer sends a hop elsewhere. -/
def Hop.RedirectsTo [HostNames] (hop : Hop) (net : Network) (target : Url) : Prop :=
  net.carries hop.url = true ∧
    ∃ r delivery, net.next.1 = .response r delivery ∧ hop.target? r = some target

theorem Hop.isRedirect_of_target? [HostNames] {hop : Hop} {r : Response} {target : Url}
    (h : hop.target? r = some target) : Status.isRedirect r.status = true := by
  unfold target? at h
  split at h
  · assumption
  · cases h

theorem Status.bounds_of_isRedirect {code : Nat} (h : isRedirect code = true) :
    300 ≤ code ∧ code ≤ 399 := by
  simp only [isRedirect, List.contains_iff_mem, List.mem_cons, List.not_mem_nil, or_false] at h
  omega

theorem Status.isSuccess_eq_false {code : Nat} (h : 300 ≤ code) : isSuccess code = false := by
  simp only [isSuccess, Bool.and_eq_false_iff, decide_eq_false_iff_not]
  omega

namespace Exchange

/-- How an exchange ends with an answer that leads nowhere else. -/
def concluded (agent : Agent) (net : Network) (first : Url) : Answer → Except Fault Response
  | .closed | .garbled => .error (.unanswered first)
  | .silent => .error (.late first)
  | .response r delivery => delivered agent net r delivery

/-- A body is told as it has arrived, or not at all. -/
theorem delivered_cases (agent : Agent) (net : Network) (r : Response) (delivery : Delivery) :
    (∃ body, delivered agent net r delivery = .ok { r with body }) ∨
      delivered agent net r delivery = .error .brokenBody ∨
      delivered agent net r delivery = .error .lateBody := by
  unfold delivered
  split
  · exact .inl ⟨[], rfl⟩
  · split
    · exact .inl ⟨_, rfl⟩
    all_goals simp

/-- What arrives has the status that was sent. -/
theorem status_of_delivered_eq_ok {agent : Agent} {net : Network} {r arrived : Response}
    {delivery : Delivery} (h : delivered agent net r delivery = .ok arrived) :
    arrived.status = r.status := by
  rcases delivered_cases agent net r delivery with ⟨body, ok⟩ | error | error
  · rw [ok] at h
    cases h
    rfl
  · rw [error] at h
    cases h
  · rw [error] at h
    cases h

/-- A response at the end is one that the server has sent, as it arrives. -/
theorem exists_response_of_concluded_eq_ok {agent : Agent} {net : Network} {first : Url}
    {a : Answer} {arrived : Response} (h : concluded agent net first a = .ok arrived) :
    ∃ r delivery, a = .response r delivery ∧ delivered agent net r delivery = .ok arrived := by
  cases a with
  | closed => cases h
  | garbled => cases h
  | silent => cases h
  | response r delivery => exact ⟨r, delivery, rfl, h⟩

variable [HostNames]

/-- What becomes of a hop with a number of redirects left. Faults on the way are told with the URL
of the first hop. -/
inductive Travels (agent : Agent) (first : Url) : Nat → Network → Hop → Exchange → Prop where
  /-- Nothing is sent if no server can be reached. -/
  | stuck {left : Nat} {net : Network} {hop : Hop} (fault : Fault)
      (stays : net.carries hop.url = false)
      (told : fault = .unsendable hop.url ∨ fault = .unreachable first) :
      Travels agent first left net hop ⟨[], .error fault, net⟩
  /-- The server sends no response. -/
  | lost {left : Nat} {net rest : Network} {hop : Hop} (fault : Fault) (a : Answer)
      (goes : net.carries hop.url = true) (answer : net.next = (a, rest))
      (told : (a = .closed ∨ a = .garbled) ∧ fault = .unanswered first ∨
        a = .silent ∧ fault = .late first) :
      Travels agent first left net hop ⟨[hop.sent], .error fault, rest⟩
  /-- A response that leads nowhere else ends the exchange. -/
  | answered {left : Nat} {net rest : Network} {hop : Hop} (r : Response) (delivery : Delivery)
      (goes : net.carries hop.url = true) (answer : net.next = (.response r delivery, rest))
      (here : hop.target? r = none) :
      Travels agent first left net hop ⟨[hop.sent], delivered agent net r delivery, rest⟩
  /-- A redirect too many is not followed. -/
  | endless {net rest : Network} {hop : Hop} (r : Response) (delivery : Delivery) (target : Url)
      (goes : net.carries hop.url = true) (answer : net.next = (.response r delivery, rest))
      (there : hop.target? r = some target) :
      Travels agent first 0 net hop
        ⟨[hop.sent], .error (.endless hop.url.withoutFragment), rest⟩
  /-- A redirect is followed to its target. -/
  | followed {left : Nat} {net rest : Network} {hop : Hop} {e : Exchange} (r : Response)
      (delivery : Delivery) (target : Url) (goes : net.carries hop.url = true)
      (answer : net.next = (.response r delivery, rest)) (there : hop.target? r = some target)
      (onward : Travels agent first left rest (hop.redirected r.status target) e) :
      Travels agent first (left + 1) net hop (e.after hop.sent)

/-- A hop follows the rules if the next one, should there be one, does. -/
theorem travels_of_onward {agent : Agent} {first : Url} {left : Nat} {net : Network} {hop : Hop}
    (onward : ∀ left', left = left' + 1 → ∀ rest next,
      Travels agent first left' rest next (travel agent first left' rest next)) :
    Travels agent first left net hop (travel agent first left net hop) := by
  unfold travel
  split
  · rename_i unsendable
    refine .stuck _ ?_ (.inl rfl)
    simp [Network.carries, (Bool.not_eq_true' _).mp unsendable]
  · rename_i sendable
    split
    · rename_i unreachable
      refine .stuck _ ?_ (.inr rfl)
      simp [Network.carries, (Bool.not_eq_true' _).mp unreachable]
    · rename_i reachable
      have goes : net.carries hop.url = true := by
        simp_all [Network.carries]
      split
      · rename_i answer
        exact .lost _ _ goes answer (.inl ⟨.inl rfl, rfl⟩)
      · rename_i answer
        exact .lost _ _ goes answer (.inl ⟨.inr rfl, rfl⟩)
      · rename_i answer
        exact .lost _ _ goes answer (.inr ⟨rfl, rfl⟩)
      · rename_i answer
        split
        · rename_i here
          exact .answered _ _ goes answer here
        · rename_i there
          exact .endless _ _ _ goes answer there
        · rename_i there
          exact .followed _ _ _ goes answer there (onward _ rfl _ _)

/-- Sending follows the rules. -/
theorem travels_travel (agent : Agent) (first : Url) (left : Nat) (net : Network) (hop : Hop) :
    Travels agent first left net hop (travel agent first left net hop) := by
  induction left generalizing net hop with
  | zero =>
      apply travels_of_onward
      rintro left' ⟨⟩
  | succ left ih =>
      apply travels_of_onward
      rintro left' ⟨⟩
      exact ih

namespace Travels

variable {agent : Agent} {first : Url} {left : Nat} {net : Network} {hop : Hop} {e : Exchange}

/-- The first request of an exchange is the hop it begins with, if that gets to a server. -/
theorem head?_sent (h : Travels agent first left net hop e) :
    e.sent.head? = if net.carries hop.url then some hop.sent else none := by
  cases h with
  | stuck fault stays told => simp [stays]
  | lost fault a goes answer told => simp [goes]
  | answered r delivery goes answer here => simp [goes]
  | endless r delivery target goes answer there => simp [goes]
  | followed r delivery target goes answer there onward => simp [goes, after]

/-- Every redirect that is left allows one request more. -/
theorem length_sent_le (h : Travels agent first left net hop e) : e.sent.length ≤ left + 1 := by
  induction h with
  | stuck fault stays told => exact Nat.zero_le _
  | lost fault a goes answer told => simp
  | answered r delivery goes answer here => simp
  | endless r delivery target goes answer there => simp
  | followed r delivery target goes answer there onward ih =>
      simpa [after] using ih

/-- Without a redirect there is one request at most, and the answer to it is what is told. -/
theorem of_forall_not_redirectsTo (h : Travels agent first left net hop e)
    (no : ∀ target, ¬hop.RedirectsTo net target) :
    (e.sent = [] ∧ ∃ fault, e.outcome = .error fault) ∨
      (e.sent = [hop.sent] ∧ e.outcome = concluded agent net first net.next.1) := by
  cases h with
  | stuck fault stays told => exact .inl ⟨rfl, fault, rfl⟩
  | lost fault a goes answer told =>
      refine .inr ⟨rfl, ?_⟩
      rw [answer]
      obtain ⟨rfl | rfl, rfl⟩ | ⟨rfl, rfl⟩ := told <;> rfl
  | answered r delivery goes answer here =>
      refine .inr ⟨rfl, ?_⟩
      rw [answer]
      rfl
  | endless r delivery target goes answer there =>
      exact absurd ⟨goes, r, delivery, by rw [answer], there⟩ (no target)
  | followed r delivery target goes answer there onward =>
      exact absurd ⟨goes, r, delivery, by rw [answer], there⟩ (no target)

/-- A redirect brings a second request, or the fault that there is no way to its target. -/
theorem of_redirectsTo (h : Travels agent first (left + 1) net hop e) {target : Url}
    (redirects : hop.RedirectsTo net target) :
    (net.carries target = true ∧ 2 ≤ e.sent.length) ∨
      (net.carries target = false ∧ e.sent = [hop.sent] ∧
        ∃ fault, e.outcome = .error fault ∧
          (fault = .unsendable target ∨ fault = .unreachable first)) := by
  obtain ⟨carried, r', delivery', answer', there'⟩ := redirects
  cases h with
  | stuck fault stays told => simp [stays] at carried
  | lost fault a goes answer told =>
      rw [answer] at answer'
      obtain ⟨rfl | rfl, -⟩ | ⟨rfl, -⟩ := told <;> cases answer'
  | answered r delivery goes answer here =>
      rw [answer] at answer'
      cases answer'
      rw [here] at there'
      cases there'
  | @followed _ _ rest _ e r delivery target' goes answer there onward =>
      have reaches : rest.reaches = net.reaches := by
        rw [← net.reaches_next, answer]
      have same : rest.carries = net.carries := by
        funext u
        rw [Network.carries, Network.carries, reaches]
      rw [answer] at answer'
      cases answer'
      rw [there] at there'
      cases there'
      cases onward with
      | stuck fault stays told =>
          exact .inr ⟨same ▸ stays, rfl, fault, rfl, told⟩
      | lost fault a goes answer told => exact .inl ⟨same ▸ goes, by simp [after]⟩
      | answered r delivery goes answer here => exact .inl ⟨same ▸ goes, by simp [after]⟩
      | endless r delivery target goes answer there =>
          exact .inl ⟨same ▸ goes, by simp [after]⟩
      | followed r delivery target goes answer there onward =>
          exact .inl ⟨same ▸ goes, by simp [after]⟩

end Travels

/-- An exchange begins with the request itself, if that gets to a server. -/
theorem head?_sent_run (agent : Agent) (net : Network) (r : Request) :
    (run agent net r).sent.head? =
      if net.carries r.url then some (Hop.start agent r).sent else none :=
  (travels_travel agent r.url redirectLimit net (.start agent r)).head?_sent

end Exchange

end RegionApi.Http
