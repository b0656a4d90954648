import RegionApi.Proofs.Client.FirstRequest
import RegionApi.Proofs.Form.Encoding
import RegionApi.Proofs.Form.Pairs

/-!
# What the calls carry

The four calls put what the caller gave into their first request without loss: a form is found again
by reading the query or the body, and the rest of the URL is that of the resource. The method is up
to the signer, which is given the whole request (`patched`).

* `get_carries_form`: operation and form make the query of a `GET`.
* `form_calls_carry_form`: the form makes the body of a `POST` or `PUT`; the operation makes the
  query of the `POST`, while `PUT` and `DELETE` keep the query of the resource.
-/

namespace RegionApi

/-! ## Queries -/

namespace Url

/-- The characters of a written form stand in a query as they are. -/
theorem query_of_isWritten {c : Char} (special : Bool)
    (h : Form.isWritten c = true ∨ c = '=' ∨ c = '&') :
    Escape.query special c = true ∧ List.contains ['\t', '\n', '\r'] c = false := by
  have bounds : 0x20 ≤ c.toNat ∧ c.toNat < 0x7f := by
    rcases h with h | rfl | rfl
    · exact Form.toNat_bounds_of_isWritten h
    all_goals decide
  have ne {d : Char} (other : ¬(Form.isWritten d = true ∨ d = '=' ∨ d = '&')) : c ≠ d := by
    rintro rfl
    exact other h
  simp [Escape.query, Escape.printable, bounds, @ne ' ' (by decide), @ne '"' (by decide),
    @ne '#' (by decide), @ne '<' (by decide), @ne '>' (by decide), @ne '\x27' (by decide),
    @ne '\t' (by decide), @ne '\n' (by decide), @ne '\r' (by decide)]

/-- A written form put into a URL is its query to the letter. -/
theorem withQuery_encode (u : Url) (form : Form) :
    u.withQuery (some form.encode) = { u with query := some form.encode } := by
  have plain : form.encode.toList.filter (fun c => !List.contains ['\t', '\n', '\r'] c) =
      form.encode.toList := by
    apply List.filter_eq_self.mpr
    intro c hc
    simp only [(query_of_isWritten true (Form.isWritten_or_separator_of_mem_encode hc)).2,
      Bool.not_false]
  have kept : Escape.text (Escape.query (isSpecial u.scheme)) form.encode.toList =
      form.encode := by
    rw [Escape.text, Text.Percent.encodeChars_of_kept, String.ofList_toList]
    intro c hc
    exact (query_of_isWritten _ (Form.isWritten_or_separator_of_mem_encode hc)).1
  simp only [withQuery, plain, kept]

/-- Taking the query from a URL of the web leaves the rest alone. -/
theorem withQuery_none {u : Url} (path : u.path.isFlat = false) :
    u.withQuery none = { u with query := none } := by
  unfold withQuery
  cases segments : u.path with
  | flat s =>
      rw [segments] at path
      cases path
  | segments names => rfl

end Url

namespace Client

/-- On a URL of the web a form takes the place of the query and changes nothing else. -/
theorem withForm_eq {u : Url} (path : u.path.isFlat = false) (form : Form) :
    withForm u form =
      { u with query := if form.isEmpty then none else some form.encode } := by
  unfold withForm
  split
  · exact Url.withQuery_none path
  · exact Url.withQuery_encode u form

/-- A form is read back from the query it makes; no query stands for no pairs. -/
theorem decode?_query_withForm {u : Url} (path : u.path.isFlat = false) (form : Form) :
    Form.decode? ((withForm u form).query.getD "") = some form.pairs := by
  rw [withForm_eq path]
  by_cases empty : form.isEmpty = true
  · have pairs : form.pairs = [] := List.isEmpty_iff.mp empty
    rw [if_pos empty, pairs]
    rfl
  · rw [if_neg empty]
    exact Form.decode?_encode form

theorem query_withForm_eq_none_iff {u : Url} (path : u.path.isFlat = false) (form : Form) :
    (withForm u form).query = none ↔ form.isEmpty = true := by
  rw [withForm_eq path]
  by_cases empty : form.isEmpty = true <;> simp [empty]

/-- A form leads to no other place. -/
theorem isAt_of_isAt_withForm {u v : Url} (path : u.path.isFlat = false) {form : Form}
    (h : v.IsAt (withForm u form)) : v.IsAt u := by
  rw [withForm_eq path] at h
  exact ⟨h.scheme, h.host, h.port, h.path⟩

/-- A query that a URL has already leaves no trace once a form takes its place. -/
theorem withForm_eq_of_query_eq {u u' : Url} (path : u.path.isFlat = false)
    (same : { u' with query := none } = { u with query := none }) (form : Form) :
    withForm u' form = withForm u form := by
  obtain ⟨scheme, authority, path', -, fragment⟩ := Url.mk.inj same
  rw [withForm_eq path, withForm_eq (path' ▸ path), scheme, authority, path', fragment]

/-! ## Operations -/

/-- The pairs of a form with those of an operation among them: the pair that selects it stands
between the smaller and the greater names, and no operation is no pair. -/
inductive Merged (form : Form) (operation : String) : List (String × String) → Prop where
  | none (absent : operation = "") : Merged form operation form.pairs
  | pair (before after : List (String × String)) (present : operation ≠ "")
      (split : form.pairs = before ++ after) (smaller : ∀ p ∈ before, p.1 < "op")
      (greater : ∀ p ∈ after, "op" < p.1) :
      Merged form operation (before ++ ("op", operation) :: after)

theorem merged_select {form : Form} (free : form.contains operationName = false)
    (operation : String) : Merged form operation (select form operation).pairs := by
  by_cases absent : operation = ""
  · rw [select, if_pos absent]
    exact .none absent
  · obtain ⟨before, after, split, smaller, greater, pairs⟩ :=
      Form.exists_pairs_set_eq free operation
    rw [select, if_neg absent, pairs]
    exact .pair before after absent split smaller greater

/-- The name that selects an operation occurs once if there is an operation, and else never. -/
theorem Merged.count_operationName {form : Form} {operation : String}
    {pairs : List (String × String)} (free : form.contains operationName = false)
    (h : Merged form operation pairs) :
    (pairs.map Prod.fst).count "op" = if operation = "" then 0 else 1 := by
  have unnamed : (form.pairs.map Prod.fst).count "op" = 0 := by
    rw [List.count_eq_zero]
    intro named
    obtain ⟨p, hp, eq⟩ := List.mem_map.mp named
    exact Form.contains_eq_false_iff.mp free p hp eq
  cases h with
  | none absent => rw [if_pos absent, unnamed]
  | pair before after present split smaller greater =>
      rw [split, List.map_append, List.count_append] at unnamed
      rw [if_neg present, List.map_append, List.map_cons, List.count_append,
        List.count_cons_self]
      omega

theorem isEmpty_select_iff (form : Form) (operation : String) :
    (select form operation).isEmpty = true ↔ operation = "" ∧ form.isEmpty = true := by
  unfold select
  split
  · rename_i absent
    exact (and_iff_right absent).symm
  · rename_i present
    have mem : (operationName, operation) ∈ (form.set operationName operation).pairs :=
      Form.mem_place.mpr (.inl rfl)
    have occupied : (form.set operationName operation).isEmpty = false :=
      List.isEmpty_eq_false_iff.mpr (List.ne_nil_of_mem mem)
    simp [occupied, present]

theorem pairs_select_empty (operation : String) :
    (select .empty operation).pairs =
      if operation = "" then [] else [(operationName, operation)] := by
  unfold select
  split <;> rfl

/-! ## The requests that calls make -/

/-- A request with a form as its body. -/
structure PreparedForm (method : Http.Method) (u : Url) (form : Form) (r : Http.Request) :
    Prop where
  method : r.method = method
  url : r.url.withoutUserInfo = u.withoutUserInfo
  contentType : Http.Headers.values r.headers "content-type" = [Form.contentType]
  body : r.body = some (Text.utf8 form.encode)

theorem exists_prepare {u : Url} (regular : u.IsRegular) (http : u.isHttp = true)
    (method : Http.Method) : ∃ r, prepare method u = .ok r ∧ Http.Prepared method u r := by
  obtain ⟨special, notFile⟩ := Url.isSpecial_of_isHttp http
  obtain ⟨host, named⟩ := regular.host special notFile
  obtain ⟨r, eq⟩ := Http.exists_prepare_eq_ok named method
  refine ⟨r, ?_, Http.prepared_of_prepare eq⟩
  rw [prepare, eq]

theorem exists_prepareForm {u : Url} (regular : u.IsRegular) (http : u.isHttp = true)
    (method : Http.Method) (form : Form) :
    ∃ r, prepareForm method u form = .ok r ∧ PreparedForm method u form r := by
  obtain ⟨r, eq, prepared⟩ := exists_prepare regular http method
  have untyped : Http.Headers.values r.headers "content-type" = [] := by
    apply Http.Headers.values_eq_nil
    intro field hfield
    rw [prepared.name_eq field hfield]
    decide
  have typed : Http.Headers.values (r.headers.append ⟨"content-type", Form.contentType, false⟩)
      "content-type" = [Form.contentType] := by
    rw [Http.Headers.values_append, untyped, List.nil_append, if_pos rfl]
  refine ⟨(r.withHeader ⟨"content-type", Form.contentType, false⟩).withBody
    (Text.utf8 form.encode), ?_, prepared.method, prepared.url, typed, rfl⟩
  rw [prepareForm, eq]
  rfl

/-- Among the URLs of the web the query is all that a form changes. -/
theorem isRegular_withForm {u : Url} (regular : u.IsRegular) (http : u.isHttp = true)
    (form : Form) : (withForm u form).IsRegular ∧ (withForm u form).isHttp = true := by
  rw [withForm_eq (regular.path (Url.isSpecial_of_isHttp http).1)]
  exact ⟨regular.of_eq rfl rfl rfl, http⟩

section Requests

variable [HostNames] {c : Client} {resource : String} {u : Url}

theorem getRequest_eq (located : c.locate resource = .ok u) {form : Form}
    (free : form.contains operationName = false) (operation : String) :
    c.getRequest resource operation form = prepare .get (withForm u (select form operation)) := by
  unfold getRequest
  rw [if_neg (Bool.eq_false_iff.mp free), located]
  rfl

theorem postRequest_eq (located : c.locate resource = .ok u) (operation : String) (form : Form) :
    c.postRequest resource operation form =
      prepareForm .post (withForm u (select .empty operation)) form := by
  unfold postRequest
  rw [located]
  rfl

theorem putRequest_eq (located : c.locate resource = .ok u) (form : Form) :
    c.putRequest resource form = prepareForm .put u form := by
  unfold putRequest
  rw [located]
  rfl

theorem deleteRequest_eq (located : c.locate resource = .ok u) :
    c.deleteRequest resource = (prepare .delete u).map fun r => r.withBody [] := by
  unfold deleteRequest
  rw [located]
  rfl

end Requests

/-! ## First requests -/

/-- Whether a request has a form as its body, and says so. -/
structure CarriesForm (s : Http.Sent) (form : Form) : Prop where
  contentType :
    Http.Headers.values s.headers "content-type" = ["application/x-www-form-urlencoded"]
  body : (Text.ofUtf8? s.body).bind Form.decode? = some form.pairs

section Get

variable [HostNames] {c : Client} (net : Http.Network) {resource : String} (operation : String)
  {form : Form} {u : Url}

/-- The first request of a `get` is a `GET` for the resource, if the signer leaves it one. Its query
is read back as the pairs of the form and the operation, whatever query the resource has itself. -/
theorem get_carries_form (keepsUrl : c.signer.Keeps Http.Request.url)
    (keepsBody : c.signer.Keeps Http.Request.body) (located : c.locate resource = .ok u)
    (http : u.isHttp = true) (free : ∀ p ∈ form.pairs, p.1 ≠ "op") :
    c.Makes net (c.getRequest resource operation form) (c.get net resource operation form) ∧
    (∀ s, (c.get net resource operation form).sent.head? = some s →
      (c.signer.Keeps Http.Request.method → s.method = .get) ∧ s.body = [] ∧ s.url.IsAt u ∧
      (s.url.query = none ↔ operation = "" ∧ form.pairs = []) ∧
      ∃ pairs, Form.decode? (s.url.query.getD "") = some pairs ∧ Merged form operation pairs ∧
        (pairs.map Prod.fst).count "op" = if operation = "" then 0 else 1) ∧
    ∀ resource' u', c.locate resource' = .ok u' →
      { u' with query := none } = { u with query := none } →
      c.get net resource' operation form = c.get net resource operation form := by
  have free : form.contains operationName = false := Form.contains_eq_false_iff.mpr free
  have regular := isRegular_of_locate located
  have path := regular.path (Url.isSpecial_of_isHttp http).1
  obtain ⟨regular', http'⟩ := isRegular_withForm regular http (select form operation)
  obtain ⟨r, eq, prepared⟩ := exists_prepare regular' http' .get
  have made : c.getRequest resource operation form = .ok r := by
    rw [getRequest_eq located free, eq]
  refine ⟨makes_of_withoutUserInfo_eq net keepsUrl regular' http' made prepared.url, ?_, ?_⟩
  · intro s first
    obtain ⟨first, method, place, query⟩ := shape_of_head?_sent made prepared.url first keepsUrl
    have merged := merged_select free operation
    refine ⟨?_, ?_, ?_, ?_, (select form operation).pairs, ?_, merged,
      merged.count_operationName free⟩
    · intro keeps
      rw [method keeps, prepared.method]
    · rw [body_of_head?_sent first keepsBody, prepared.body, Option.getD_none]
    · exact isAt_of_isAt_withForm path place
    · rw [query, query_withForm_eq_none_iff path, isEmpty_select_iff, Form.isEmpty,
        List.isEmpty_iff]
    · rw [query, decode?_query_withForm path]
  · intro resource' u' located' same
    rw [get, get, getRequest_eq located free, getRequest_eq located' free,
      withForm_eq_of_query_eq path same]

end Get

/-- A form that needs escapes, an operation, and a resource that has a query already. -/
theorem get_carries_form_loopback :
    ∃ u s, loopback.locate "m/?x=1" = .ok u ∧ u.isHttp = true ∧
      (∀ p ∈ (Form.empty.add "k" "&").pairs, p.1 ≠ "op") ∧
      (loopback.get (.plain []) "m/?x=1" "list" (Form.empty.add "k" "&")).sent.head? = some s ∧
      s.method = .get ∧ s.url.IsAt u ∧
      ∃ pairs, Form.decode? (s.url.query.getD "") = some pairs ∧
        Merged (Form.empty.add "k" "&") "list" pairs := by
  have located : loopback.locate "m/?x=1" = .ok _ := rfl
  have free : ∀ p ∈ (Form.empty.add "k" "&").pairs, p.1 ≠ "op" := by decide
  obtain ⟨-, carried, -⟩ := get_carries_form (.plain []) "list" (Signer.keeps_anonymous _)
    (Signer.keeps_anonymous _) located rfl free
  obtain ⟨method, -, place, -, pairs, read, merged, -⟩ := carried _ rfl
  exact ⟨_, _, located, rfl, free, rfl, method (Signer.keeps_anonymous _), place, pairs, read,
    merged⟩

/-- A client for the machine it runs on, whose signer makes every request a `PATCH` and leaves the
rest of it alone. -/
def patched : Client :=
  { loopback with signer := ⟨fun r => .ok { r with method := .other "PATCH" }⟩ }

/-- Its signer keeps all that does not depend on the method. -/
theorem keeps_patched {α : Type} {part : Http.Request → α}
    (same : ∀ r method, part { r with method } = part r) : patched.signer.Keeps part := by
  rintro r signed ⟨⟩
  exact same r _

/-- A `get` is no `GET` if the signer makes it something else. -/
theorem not_get_patched :
    ∃ u s, patched.signer.Keeps Http.Request.url ∧ patched.signer.Keeps Http.Request.body ∧
      patched.locate "m/" = .ok u ∧ u.isHttp = true ∧
      (patched.get (.plain []) "m/" "" .empty).sent.head? = some s ∧ s.method ≠ .get :=
  ⟨_, _, keeps_patched fun _ _ => rfl, keeps_patched fun _ _ => rfl, rfl, rfl, rfl, nofun⟩

section Forms

variable [HostNames] {c : Client} (net : Http.Network) {resource : String} (operation : String)
  (form : Form) {u : Url}

variable {form} in
theorem PreparedForm.carriesForm {net : Http.Network} {method : Http.Method} {r : Http.Request}
    {s : Http.Sent} (prepared : PreparedForm method u form r)
    (first : (c.dispatch net r).sent.head? = some s)
    (keepsBody : c.signer.Keeps Http.Request.body)
    (keepsType : c.signer.Keeps fun r => Http.Headers.values r.headers "content-type") :
    CarriesForm s form := by
  constructor
  · rw [values_of_head?_sent first keepsType (by decide), prepared.contentType]
    rfl
  · rw [body_of_head?_sent first keepsBody, prepared.body, Option.getD_some,
      Text.ofUtf8?_utf8, Option.bind_some, Form.decode?_encode]

/-- A `POST` has the operation, and nothing else, as its query. -/
theorem post_carries (keepsUrl : c.signer.Keeps Http.Request.url)
    (keepsBody : c.signer.Keeps Http.Request.body)
    (keepsType : c.signer.Keeps fun r => Http.Headers.values r.headers "content-type")
    (located : c.locate resource = .ok u) (http : u.isHttp = true) :
    c.Makes net (c.postRequest resource operation form) (c.post net resource operation form) ∧
    ∀ s, (c.post net resource operation form).sent.head? = some s →
      (c.signer.Keeps Http.Request.method → s.method = .post) ∧ s.url.IsAt u ∧
      CarriesForm s form ∧ (s.url.query = none ↔ operation = "") ∧
      Form.decode? (s.url.query.getD "") =
        some (if operation = "" then [] else [("op", operation)]) := by
  have regular := isRegular_of_locate located
  have path := regular.path (Url.isSpecial_of_isHttp http).1
  obtain ⟨regular', http'⟩ := isRegular_withForm regular http (select .empty operation)
  obtain ⟨r, eq, prepared⟩ := exists_prepareForm regular' http' .post form
  have made : c.postRequest resource operation form = .ok r := by
    rw [postRequest_eq located, eq]
  refine ⟨makes_of_withoutUserInfo_eq net keepsUrl regular' http' made prepared.url, ?_⟩
  intro s first
  obtain ⟨first, method, place, query⟩ := shape_of_head?_sent made prepared.url first keepsUrl
  refine ⟨?_, ?_, prepared.carriesForm first keepsBody keepsType, ?_, ?_⟩
  · intro keeps
    rw [method keeps, prepared.method]
  · exact isAt_of_isAt_withForm path place
  · rw [query, query_withForm_eq_none_iff path, isEmpty_select_iff]
    exact and_iff_left rfl
  · rw [query, decode?_query_withForm path, pairs_select_empty]
    rfl

/-- A `PUT` has the query of the resource. -/
theorem put_carries (keepsUrl : c.signer.Keeps Http.Request.url)
    (keepsBody : c.signer.Keeps Http.Request.body)
    (keepsType : c.signer.Keeps fun r => Http.Headers.values r.headers "content-type")
    (located : c.locate resource = .ok u) (http : u.isHttp = true) :
    c.Makes net (c.putRequest resource form) (c.put net resource form) ∧
    ∀ s, (c.put net resource form).sent.head? = some s →
      (c.signer.Keeps Http.Request.method → s.method = .put) ∧ s.url.IsAt u ∧
      s.url.query = u.query ∧ CarriesForm s form := by
  have regular := isRegular_of_locate located
  obtain ⟨r, eq, prepared⟩ := exists_prepareForm regular http .put form
  have made : c.putRequest resource form = .ok r := by
    rw [putRequest_eq located, eq]
  refine ⟨makes_of_withoutUserInfo_eq net keepsUrl regular http made prepared.url, ?_⟩
  intro s first
  obtain ⟨first, method, place, query⟩ := shape_of_head?_sent made prepared.url first keepsUrl
  refine ⟨?_, place, query, prepared.carriesForm first keepsBody keepsType⟩
  intro keeps
  rw [method keeps, prepared.method]

/-- A `DELETE` has the query of the resource, and no body. -/
theorem delete_carries (keepsUrl : c.signer.Keeps Http.Request.url)
    (keepsBody : c.signer.Keeps Http.Request.body) (located : c.locate resource = .ok u)
    (http : u.isHttp = true) :
    c.Makes net (c.deleteRequest resource) (c.delete net resource) ∧
    ∀ s, (c.delete net resource).sent.head? = some s →
      (c.signer.Keeps Http.Request.method → s.method = .delete) ∧ s.url.IsAt u ∧
      s.url.query = u.query ∧ s.body = [] := by
  have regular := isRegular_of_locate located
  obtain ⟨r, eq, prepared⟩ := exists_prepare regular http .delete
  have made : c.deleteRequest resource = .ok (r.withBody []) := by
    rw [deleteRequest_eq located, eq]
    rfl
  refine ⟨makes_of_withoutUserInfo_eq net keepsUrl regular http made prepared.url, ?_⟩
  intro s first
  rw [delete, Call.sent_andThen] at first
  obtain ⟨first, method, place, query⟩ := shape_of_head?_sent made prepared.url first keepsUrl
  refine ⟨?_, place, query, body_of_head?_sent first keepsBody⟩
  intro keeps
  exact (method keeps).trans prepared.method

/-- The calls that send a form as the body send all of it, and keep it apart from the query: that of
a `POST` is its operation, and that of a `PUT` or `DELETE` is the one of the resource. -/
theorem form_calls_carry_form (keepsUrl : c.signer.Keeps Http.Request.url)
    (keepsBody : c.signer.Keeps Http.Request.body)
    (keepsType : c.signer.Keeps fun r => Http.Headers.values r.headers "content-type")
    (located : c.locate resource = .ok u) (http : u.isHttp = true) :
    (c.Makes net (c.postRequest resource operation form) (c.post net resource operation form) ∧
      ∀ s, (c.post net resource operation form).sent.head? = some s →
        (c.signer.Keeps Http.Request.method → s.method = .post) ∧ s.url.IsAt u ∧
        CarriesForm s form ∧ (s.url.query = none ↔ operation = "") ∧
        Form.decode? (s.url.query.getD "") =
          some (if operation = "" then [] else [("op", operation)])) ∧
    (c.Makes net (c.putRequest resource form) (c.put net resource form) ∧
      ∀ s, (c.put net resource form).sent.head? = some s →
        (c.signer.Keeps Http.Request.method → s.method = .put) ∧ s.url.IsAt u ∧
        s.url.query = u.query ∧ CarriesForm s form) ∧
    (c.Makes net (c.deleteRequest resource) (c.delete net resource) ∧
      ∀ s, (c.delete net resource).sent.head? = some s →
        (c.signer.Keeps Http.Request.method → s.method = .delete) ∧ s.url.IsAt u ∧
        s.url.query = u.query ∧ s.body = []) :=
  ⟨post_carries net operation form keepsUrl keepsBody keepsType located http,
    put_carries net form keepsUrl keepsBody keepsType located http,
    delete_carries net keepsUrl keepsBody located http⟩

end Forms

/-- A form that holds the name of the operation itself, and a resource that has a query. -/
theorem form_calls_carry_form_loopback :
    ∃ u s t, loopback.locate "m/?x=1" = .ok u ∧ u.isHttp = true ∧
      (loopback.post (.plain []) "m/?x=1" "list" (Form.empty.add "op" "é")).sent.head? = some s ∧
      Form.decode? (s.url.query.getD "") = some [("op", "list")] ∧
      CarriesForm s (Form.empty.add "op" "é") ∧
      (loopback.put (.plain []) "m/?x=1" (Form.empty.add "op" "é")).sent.head? = some t ∧
      t.url.query = u.query ∧ CarriesForm t (Form.empty.add "op" "é") := by
  have located : loopback.locate "m/?x=1" = .ok _ := rfl
  obtain ⟨⟨-, posted⟩, ⟨-, put⟩, -⟩ :=
    form_calls_carry_form (.plain []) "list" (Form.empty.add "op" "é")
      (Signer.keeps_anonymous _) (Signer.keeps_anonymous _) (Signer.keeps_anonymous _) located rfl
  obtain ⟨-, -, carried, -, read⟩ := posted _ rfl
  obtain ⟨-, -, query, carried'⟩ := put _ rfl
  exact ⟨_, _, _, located, rfl, rfl, read, carried, rfl, query, carried'⟩

/-- The other calls do not have their methods either if the signer makes them something else. -/
theorem not_form_methods_patched :
    ∃ u s t d, patched.signer.Keeps Http.Request.url ∧ patched.signer.Keeps Http.Request.body ∧
      (patched.signer.Keeps fun r => Http.Headers.values r.headers "content-type") ∧
      patched.locate "m/" = .ok u ∧ u.isHttp = true ∧
      (patched.post (.plain []) "m/" "" .empty).sent.head? = some s ∧ s.method ≠ .post ∧
      (patched.put (.plain []) "m/" .empty).sent.head? = some t ∧ t.method ≠ .put ∧
      (patched.delete (.plain []) "m/").sent.head? = some d ∧ d.method ≠ .delete :=
  ⟨_, _, _, _, keeps_patched fun _ _ => rfl, keeps_patched fun _ _ => rfl,
    keeps_patched fun _ _ => rfl, rfl, rfl, rfl, nofun, rfl, nofun, rfl, nofun⟩

end Client

end RegionApi
