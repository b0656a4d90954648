import RegionApi.Proofs.Client.Origin
import RegionApi.Resource

/-!
# What follow-up calls ask for

What is asked of a resource is asked at its URL. An update and a removal ask for this URL as it is,
and an operation asks for it with the query that selects the operation. Reading the resource again
asks for it without its query, so another resource is read if there is one (`isFor_iff`).
-/

namespace RegionApi.Resource

open Client (Invocation Merged operationName)

/-- What can be asked of a resource. -/
inductive FollowUp where
  | fetch
  | update (form : Form)
  | delete
  | callGet (operation : String) (form : Form)
  | callPost (operation : String) (form : Form)
deriving DecidableEq

namespace FollowUp

/-- The call itself, whatever it brings. -/
def call [HostNames] (r : Resource) (net : Http.Network) : FollowUp → Call Unit
  | fetch => (r.fetch net).andThen fun _ => .ok ()
  | update form => (r.update net form).andThen fun _ => .ok ()
  | delete => r.delete net
  | callGet operation form => (r.callGet net operation form).andThen fun _ => .ok ()
  | callPost operation form => (r.callPost net operation form).andThen fun _ => .ok ()

/-- The call of the client that is made for it. -/
def invocation [HostNames] (r : Resource) : FollowUp → Invocation
  | fetch => .get r.address "" .empty
  | update form => .put r.address form
  | delete => .delete r.address
  | callGet operation form => .get r.address operation form
  | callPost operation form => .post r.address operation form

/-- Whether the parameters of a read hold the operation. -/
def namesOperation : FollowUp → Bool
  | callGet _ form => form.contains operationName
  | fetch | update _ | delete | callPost _ _ => false

/-- Whether a URL on the wire is that of a resource, as far as this is what a follow-up is to ask
for: an operation has a query of its own. -/
def IsFor (u v : Url) : FollowUp → Prop
  | fetch | update _ | delete => v = u.withoutUserInfo.withoutFragment
  | callGet operation form =>
    v = { u.withoutUserInfo.withoutFragment with query := v.query } ∧
      (v.query = none ↔ operation = "" ∧ form.isEmpty = true) ∧
      ∃ pairs, Form.decode? (v.query.getD "") = some pairs ∧ Merged form operation pairs
  | callPost operation _ =>
    v = { u.withoutUserInfo.withoutFragment with query := v.query } ∧
      (v.query = none ↔ operation = "") ∧
      Form.decode? (v.query.getD "") =
        some (if operation = "" then [] else [(operationName, operation)])

section Calls

variable [HostNames] {f : FollowUp} {r : Resource} {u : Url} {net : Http.Network} {s : Http.Sent}

theorem sent_call (f : FollowUp) (r : Resource) (net : Http.Network) :
    (f.call r net).sent = ((f.invocation r).call r.client net).sent := by
  cases f <;> rfl

theorem resource_invocation (f : FollowUp) (r : Resource) :
    (f.invocation r).resource = r.address := by
  cases f <;> rfl

theorem namesOperation_invocation (f : FollowUp) (r : Resource) :
    (f.invocation r).namesOperation = f.namesOperation := by
  cases f <;> rfl

/-- The URL of a resource is where the client locates its address. -/
theorem join_of_url_eq_ok (url : r.url = .ok u) (f : FollowUp) :
    r.client.base.join (f.invocation r).resource = .ok u := by
  rw [resource_invocation]
  exact Invocation.locate_eq_ok_iff.mp url

theorem isRegular_of_url_eq_ok (url : r.url = .ok u) : u.IsRegular :=
  Client.isRegular_of_locate url

/-- A request is made for whatever follows. -/
theorem makes_call (net : Http.Network) (url : r.url = .ok u) (http : u.isHttp = true)
    (keeps : r.client.signer.Keeps Http.Request.url) (free : f.namesOperation = false) :
    r.client.Makes net ((f.invocation r).request r.client) (f.call r net) := by
  obtain ⟨regular, web⟩ :=
    Invocation.isRegular_address (isRegular_of_url_eq_ok url) http (f.invocation r)
  obtain ⟨special, notFile⟩ := Url.isSpecial_of_isHttp http
  obtain ⟨host, named⟩ := (isRegular_of_url_eq_ok url).host special notFile
  obtain ⟨q, made, address⟩ := Invocation.exists_request_of_host
    ((namesOperation_invocation f r).trans free) (join_of_url_eq_ok url f) (by simp [named])
  have makes := Client.makes_of_withoutUserInfo_eq net keeps regular web made address
  unfold Client.Makes at makes ⊢
  rw [sent_call, Invocation.call_eq_issue, Call.sent_andThen]
  exact makes

/-- The first request is for the URL that the call of the client makes of the resource's. -/
theorem url_of_head?_sent (url : r.url = .ok u) (http : u.isHttp = true)
    (keeps : r.client.signer.Keeps Http.Request.url)
    (first : (f.call r net).sent.head? = some s) :
    s.url = ((f.invocation r).address u).withoutUserInfo.withoutFragment := by
  obtain ⟨special, notFile⟩ := Url.isSpecial_of_isHttp http
  obtain ⟨host, named⟩ := (isRegular_of_url_eq_ok url).host special notFile
  rw [sent_call] at first
  exact Invocation.url_of_head?_sent_call (join_of_url_eq_ok url f) (by simp [named]) keeps first

omit [HostNames] in
/-- On the wire, a form takes the place of the query. -/
theorem wire_withForm (path : u.path.isFlat = false) (form : Form) :
    (Client.withForm u form).withoutUserInfo.withoutFragment =
      { u.withoutUserInfo.withoutFragment with query := (Client.withForm u form).query } := by
  rw [Client.withForm_eq path]
  rfl

/-- Everything but reading the resource again asks for its URL. -/
theorem isFor_address (path : u.path.isFlat = false) (free : f.namesOperation = false)
    (other : f ≠ fetch) :
    f.IsFor u ((f.invocation r).address u).withoutUserInfo.withoutFragment := by
  cases f with
  | fetch => exact absurd rfl other
  | update form => exact rfl
  | delete => exact rfl
  | callGet operation form =>
      refine ⟨wire_withForm path _, ?_, (Client.select form operation).pairs, ?_,
        Client.merged_select free operation⟩
      · exact (Client.query_withForm_eq_none_iff path _).trans
          (Client.isEmpty_select_iff form operation)
      · exact Client.decode?_query_withForm path _
  | callPost operation form =>
      refine ⟨wire_withForm path _, ?_, ?_⟩
      · refine (Client.query_withForm_eq_none_iff path _).trans ?_
        rw [Client.isEmpty_select_iff]
        exact and_iff_left rfl
      · rw [← Client.pairs_select_empty]
        exact Client.decode?_query_withForm path _

/-- Reading the resource again asks for its URL without the query. -/
theorem wire_address_fetch (path : u.path.isFlat = false) :
    ((fetch.invocation r).address u).withoutUserInfo.withoutFragment =
      { u.withoutUserInfo.withoutFragment with query := none } := by
  refine (wire_withForm path _).trans ?_
  rw [(Client.query_withForm_eq_none_iff path (Client.select .empty "")).mpr rfl]

/-- A request is made for everything that is asked of a resource, and the first one is for its URL
exactly if the resource is not read again, or its URL has no query, or nothing is sent. Read again
it is without its query. -/
theorem isFor_iff (url : r.url = .ok u) (http : u.isHttp = true)
    (keeps : r.client.signer.Keeps Http.Request.url) (free : f.namesOperation = false)
    (net : Http.Network) :
    r.client.Makes net ((f.invocation r).request r.client) (f.call r net) ∧
    ((∀ s, (f.call r net).sent.head? = some s → f.IsFor u s.url) ↔
      f ≠ fetch ∨ u.query = none ∨ (f.call r net).sent = []) ∧
    ∀ s, f = fetch → (f.call r net).sent.head? = some s →
      s.url = { u.withoutUserInfo.withoutFragment with query := none } := by
  have path := (isRegular_of_url_eq_ok url).path (Url.isSpecial_of_isHttp http).1
  have queryless : ∀ s, (fetch.call r net).sent.head? = some s →
      s.url = { u.withoutUserInfo.withoutFragment with query := none } := fun s first =>
    (url_of_head?_sent url http keeps first).trans (wire_address_fetch path)
  refine ⟨makes_call net url http keeps free, ⟨fun all => ?_, ?_⟩, ?_⟩
  · by_cases again : f = fetch
    · subst again
      cases sent : (fetch.call r net).sent with
      | nil => exact .inr (.inr rfl)
      | cons s rest =>
          have first : (fetch.call r net).sent.head? = some s := by rw [sent, List.head?_cons]
          have asked : s.url = u.withoutUserInfo.withoutFragment := all s first
          have same := congrArg Url.query ((queryless s first).symm.trans asked)
          exact .inr (.inl same.symm)
    · exact .inl again
  · rintro holds s first
    by_cases again : f = fetch
    · subst again
      rcases holds with other | query | unsent
      · exact absurd rfl other
      · refine (queryless s first).trans ?_
        rw [← query]
        rfl
      · rw [unsent] at first
        cases first
    · rw [url_of_head?_sent url http keeps first]
      exact isFor_address path free again
  · rintro s rfl first
    exact queryless s first

end Calls

/-- The URL of a resource whose address has a query. -/
def queried : Url := ⟨"http", Client.loopback.base.authority, .segments ["m", ""], some "x=1", none⟩

theorem url_queried : (ofAddress Client.loopback "m/?x=1").url = .ok queried := by
  decide +kernel

/-- A resource whose address has a query is read again without it. -/
theorem not_isFor_loopback :
    ∃ r u s, ofFields Client.loopback [(addressField, .string "m/?x=1")] = .ok r ∧
      r.url = .ok u ∧ u.isHttp = true ∧ u.query = some "x=1" ∧
      (fetch.call r (.plain [])).sent.head? = some s ∧ s.url.path = u.path ∧
      s.url.query = none ∧ ¬ fetch.IsFor u s.url := by
  have sent : (fetch.call (ofAddress Client.loopback "m/?x=1") (.plain [])).sent.head?.map
      (·.url) = some { queried with query := none } := by decide +kernel
  obtain ⟨s, first, url⟩ := Option.map_eq_some_iff.mp sent
  refine ⟨_, queried, s, rfl, url_queried, rfl, rfl, first, ?_, ?_, ?_⟩
  · rw [url]
  · rw [url]
  · rw [url]
    intro asked
    cases congrArg Url.query asked

/-- The same resource is changed where it is. -/
theorem isFor_iff_loopback :
    ∃ u s, (ofAddress Client.loopback "m/?x=1").url = .ok u ∧ u.isHttp = true ∧
      u.query = some "x=1" ∧
      ((update .empty).call (ofAddress Client.loopback "m/?x=1") (.plain [])).sent.head? = some s ∧
      (update .empty).IsFor u s.url := by
  have sent : ((update .empty).call (ofAddress Client.loopback "m/?x=1") (.plain [])).sent.head?.map
      (·.method) = some .put := by decide +kernel
  obtain ⟨s, first, -⟩ := Option.map_eq_some_iff.mp sent
  obtain ⟨-, ⟨-, asks⟩, -⟩ := isFor_iff (f := update .empty) url_queried rfl
    (Signer.keeps_anonymous _) rfl (.plain [])
  exact ⟨queried, s, url_queried, rfl, rfl, first, asks (.inl (by decide)) s first⟩

end FollowUp

end RegionApi.Resource
