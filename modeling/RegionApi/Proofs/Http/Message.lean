import RegionApi.Http.Exchange

/-!
# Header fields of a request that is sent

A request is prepared with at most one field, the authorization its URL brings along (`Prepared`),
and the agent adds its own fields behind those of the request (`values_complete`, `erase_complete`).
-/

namespace RegionApi

/-- Whether a URL has a user name or a password. -/
def Url.HasUserInfo (u : Url) : Prop :=
  ∃ a, u.authority = some a ∧ (a.username ≠ "" ∨ a.password ≠ none)

namespace Http

/-! ## Prepared requests -/

/-- A request that has just been prepared for a URL. -/
structure Prepared (method : Method) (u : Url) (r : Request) : Prop where
  method : r.method = method
  url : r.url.withoutUserInfo = u.withoutUserInfo
  headers : r.headers = (userInfo? u).elim [] fun info => [basicAuthorization info.1 info.2]
  body : r.body = none

theorem withoutUserInfo_withoutUserInfo (u : Url) :
    u.withoutUserInfo.withoutUserInfo = u.withoutUserInfo := by
  unfold Url.withoutUserInfo
  cases u.authority <;> rfl

theorem prepared_of_prepare {method : Method} {u : Url} {r : Request}
    (h : Request.prepare method u = .ok r) : Prepared method u r := by
  unfold Request.prepare at h
  split at h
  · cases h
  · rename_i info
    cases h
    exact ⟨rfl, rfl, by rw [info]; rfl, rfl⟩
  · rename_i info
    cases h
    exact ⟨rfl, withoutUserInfo_withoutUserInfo u, by rw [info]; rfl, rfl⟩

/-- A request can be prepared for every URL that names a host. -/
theorem exists_prepare_eq_ok {u : Url} {host : Url.Host} (h : u.host? = some host)
    (method : Method) : ∃ r, Request.prepare method u = .ok r := by
  unfold Request.prepare
  rw [h]
  cases userInfo? u with
  | none => exact ⟨_, rfl⟩
  | some info => exact ⟨_, rfl⟩

@[simp] theorem name_basicAuthorization (name : String) (password : Option String) :
    (basicAuthorization name password).name = "authorization" := rfl

/-- A prepared request has no field but an authorization. -/
theorem Prepared.name_eq {method : Method} {u : Url} {r : Request} (h : Prepared method u r) :
    ∀ field ∈ r.headers, field.name = "authorization" := by
  rw [h.headers]
  cases userInfo? u with
  | none => simp
  | some info => simp

@[simp] theorem spelled?_empty : spelled? "" = some "" := Text.ofUtf8?_utf8 ""

/-- A URL that brings an authorization along has a user name or a password. -/
theorem hasUserInfo_of_userInfo? {u : Url} (h : (userInfo? u).isSome = true) :
    u.HasUserInfo := by
  obtain ⟨info, h⟩ := Option.isSome_iff_exists.mp h
  obtain ⟨a, ha, h⟩ := Option.bind_eq_some_iff.mp h
  obtain ⟨name, hname, h⟩ := Option.bind_eq_some_iff.mp h
  refine ⟨a, ha, ?_⟩
  by_cases unnamed : a.username = ""
  · refine .inr fun unsecured => ?_
    rw [unnamed, spelled?_empty] at hname
    cases hname
    simp [unsecured] at h
  · exact .inl unnamed

theorem Prepared.hasUserInfo {method : Method} {u : Url} {r : Request}
    (h : Prepared method u r) (authorized : r.headers ≠ []) : u.HasUserInfo := by
  refine hasUserInfo_of_userInfo? (Option.isSome_iff_ne_none.mpr fun none => authorized ?_)
  rw [h.headers, none]
  rfl

/-! ## Fields of the agent -/

namespace Headers

theorem values_append_list (hs ks : Headers) (name : String) :
    values (hs ++ ks) name = values hs name ++ values ks name := by
  simp [values]

theorem values_eq_nil {hs : Headers} {name : String} (h : ∀ field ∈ hs, field.name ≠ name) :
    values hs name = [] := by
  rw [values, List.map_eq_nil_iff, List.filter_eq_nil_iff]
  intro field hfield
  simpa using h field hfield

theorem erase_append_list (hs ks : Headers) (name : String) :
    erase (hs ++ ks) name = erase hs name ++ erase ks name := by
  simp [erase]

theorem erase_set (hs : Headers) (h : Header) : erase (set hs h) h.name = erase hs h.name := by
  simp [set, append, erase]

/-- Whether a name is among the fields does not change when another name is set. -/
theorem any_set {hs : Headers} {h : Header} {name : String} (ne : h.name ≠ name) :
    (set hs h).any (fun field => field.name = name) = hs.any fun field => field.name = name := by
  have other : ∀ field : Header, (decide (field.name ≠ h.name) && decide (field.name = name)) =
      decide (field.name = name) := by
    intro field
    by_cases eq : field.name = name
    · simp [eq, ne.symm]
    · simp [eq]
  rw [set, append, erase, List.any_append, List.any_filter]
  simp only [other]
  simp [ne]

end Headers

namespace Agent

/-- The names of the fields an agent may add. -/
theorem name_mem_of_mem_headers (a : Agent) :
    ∀ field ∈ a.headers, field.name ∈ ["accept", "user-agent", "accept-encoding"] := by
  unfold headers
  split <;> simp

theorem name_ne_of_mem_headers {a : Agent} {name : String}
    (h : name ∉ ["accept", "user-agent", "accept-encoding"]) :
    ∀ field ∈ a.headers, field.name ≠ name := by
  rintro field hfield rfl
  exact h (name_mem_of_mem_headers a field hfield)

/-- The agent leaves alone what is not its own. -/
theorem values_complete {a : Agent} {name : String}
    (h : name ∉ ["accept", "user-agent", "accept-encoding"]) (hs : Headers) :
    Headers.values (a.complete hs) name = Headers.values hs name := by
  have others : ∀ field ∈ a.headers.filter fun h => !hs.any (·.name = h.name),
      field.name ≠ name := fun field hfield =>
    name_ne_of_mem_headers h field (List.mem_filter.mp hfield).1
  rw [complete, Headers.values_append_list, Headers.values_eq_nil others, List.append_nil]

/-- What the agent adds does not depend on a field that is not its own. -/
theorem erase_complete_set {a : Agent} {h : Header}
    (own : h.name ∉ ["accept", "user-agent", "accept-encoding"]) (hs : Headers) :
    Headers.erase (a.complete (Headers.set hs h)) h.name =
      Headers.erase (a.complete hs) h.name := by
  have added : (a.headers.filter fun field => !(Headers.set hs h).any (·.name = field.name)) =
      a.headers.filter fun field => !hs.any (·.name = field.name) := by
    apply List.filter_congr
    intro field hfield
    rw [Headers.any_set (name_ne_of_mem_headers own field hfield).symm]
  rw [complete, complete, Headers.erase_append_list, Headers.erase_append_list, added,
    Headers.erase_set]

end Agent

/-! ## The first hop -/

@[simp] theorem method_sent_start (a : Agent) (r : Request) :
    (Hop.start a r).sent.method = r.method := rfl

@[simp] theorem url_sent_start (a : Agent) (r : Request) :
    (Hop.start a r).sent.url = r.url.withoutUserInfo.withoutFragment := rfl

@[simp] theorem headers_sent_start (a : Agent) (r : Request) :
    (Hop.start a r).sent.headers = a.complete r.headers := rfl

@[simp] theorem body_sent_start (a : Agent) (r : Request) :
    (Hop.start a r).sent.body = r.body.getD [] := rfl

end Http

end RegionApi
