import RegionApi.Proofs.Client.Refusal
import RegionApi.Proofs.Resource.Run
import RegionApi.Proofs.Url.Normal

/-!
# Addresses reached by name

From the root of a client for the web, names lead from resource to resource (`Reached`). As long as
they lead to URLs of the web, every resource has the address that its URL is written as, whatever
the names are (`reached_address_is_url`): an address that was written is read back as the URL it was
written from, so nothing is lost by keeping it as a text.
-/

namespace RegionApi

/-! ## Directories -/

namespace Url

/-- A path is closed by a slash at its end, unless it ends in one. -/
theorem Path.IsTidy.text_closed {p : Path} (tidy : p.IsTidy) :
    p.closed.text = if p.text.getLast? = some '/' then p.text else p.text ++ ['/'] := by
  cases p with
  | flat s => exact tidy.elim
  | segments names =>
      obtain ⟨some, name⟩ := tidy
      obtain ⟨front, last, rfl⟩ := (List.eq_nil_or_concat' names).resolve_left some
      have whole : last.toList.getLast? ≠ Option.some '/' := fun slash =>
        (name last (by simp)).whole (List.mem_of_getLast? slash)
      rcases List.eq_nil_or_concat' last.toList with empty | ⟨cs, c, chars⟩
      · have none : last = "" := String.toList_eq_nil_iff.mp empty
        simp [Path.closed, Path.text, none]
      · have full : last ≠ "" := by
          rintro rfl
          simp at chars
        rw [chars] at whole
        have other : c ≠ '/' := by simpa using whole
        have text : (segments (front ++ [last])).text =
            (segments front).text ++ '/' :: cs ++ [c] := by
          simp [Path.text, chars]
        have unclosed : (segments (front ++ [last])).text.getLast? ≠ Option.some '/' := by
          rw [text, List.getLast?_concat]
          simpa using other
        rw [if_neg unclosed]
        simp [Path.closed, Path.text, full]

theorem Path.IsTidy.getLast?_text_closed {p : Path} (tidy : p.IsTidy) :
    p.closed.text.getLast? = some '/' := by
  rw [tidy.text_closed]
  split
  · assumption
  · exact List.getLast?_concat

theorem Path.closed_closed {p : Path} (h : p.isFlat = false) : p.closed.closed = p.closed := by
  cases p with
  | flat s => cases h
  | segments names =>
      by_cases last : names.getLast? = some ""
      · simp [Path.closed, last]
      · simp [Path.closed, last]

/-- Whether a URL is another with a slash at the end of its path, everything else being kept. -/
structure IsDirectoryOf (w v : Url) : Prop where
  scheme : w.scheme = v.scheme
  authority : w.authority = v.authority
  query : w.query = v.query
  fragment : w.fragment = v.fragment
  path : w.path.text =
    if v.path.text.getLast? = some '/' then v.path.text else v.path.text ++ ['/']

theorem IsNormal.isDirectoryOf [HostNames] {v : Url} (normal : v.IsNormal) :
    v.asDirectory.IsDirectoryOf v :=
  ⟨rfl, rfl, rfl, rfl, normal.path.tidy.text_closed⟩

/-- Against a URL of the web the empty reference leads to that URL without its fragment. -/
theorem IsNormal.join_empty [HostNames] {u : Url} (normal : u.IsNormal) :
    u.join "" = .ok u.withoutFragment := by
  have clean : cleaned "" = [] := by decide
  rw [Url.join, resolve, clean]
  simp [splitScheme?, resolveWithoutScheme, normal.path.tidy.isFlat, normal.notFile,
    resolveRelative, Reference.ofChars, Reference.cut, Reference.queryText, Reference.fragmentText,
    withoutFragment]

end Url

namespace Resource

/-! ## Going down by name -/

/-- Whether a name leads from a resource to a URL. -/
def LeadsTo [HostNames] (r : Resource) (name : String) (v : Url) : Prop :=
  ∃ u, r.url = .ok u ∧ u.join name = .ok v

/-- The resources that names lead to from the root of a client, as long as they lead to URLs of the
web. -/
inductive Reached [HostNames] (c : Client) : List String → Resource → Prop where
  | root : Reached c [] (root c)
  | step {names : List String} {parent r : Resource} {name : String} {v : Url}
      (reached : Reached c names parent) (leads : parent.LeadsTo name v) (web : v.isHttp = true)
      (made : parent.child name = .ok r) : Reached c (names ++ [name]) r

/-- Whether a resource of a client has the address that a URL of the web is written as. -/
structure HasUrl [HostNames] (c : Client) (r : Resource) (u : Url) : Prop where
  client : r.client = c
  normal : u.IsNormal
  text : u.text = r.address

section Reached

variable [HostNames] {c : Client} {r new : Resource} {u v : Url} {name : String}

/-- The URL is read back from the address. -/
theorem HasUrl.url_eq (h : HasUrl c r u) : r.url = .ok u := by
  rw [url, ← h.text]
  exact Client.Invocation.locate_of_join_eq_ok (h.normal.resolve_text (some _))

theorem child_eq_ok_iff_of_leadsTo (leads : r.LeadsTo name v) :
    r.child name = .ok new ↔ new = ofAddress r.client v.asDirectory.text := by
  obtain ⟨u, url, joined⟩ := leads
  rw [child, url, ok_bind, joined]
  exact ⟨fun made => (Except.ok.inj made).symm, fun made => congrArg Except.ok made.symm⟩

/-- There is a child for every name that leads somewhere. -/
theorem exists_child_iff : (∃ new, r.child name = .ok new) ↔ ∃ v, r.LeadsTo name v := by
  constructor
  · rintro ⟨new, made⟩
    obtain ⟨u, v, url, joined, -⟩ := child_eq_ok_iff.mp made
    exact ⟨v, u, url, joined⟩
  · rintro ⟨v, leads⟩
    exact ⟨_, (child_eq_ok_iff_of_leadsTo leads).mpr rfl⟩

/-- What lies below a resource with a URL has a URL too, as long as it is one of the web. -/
theorem HasUrl.below (h : HasUrl c r u) (leads : r.LeadsTo name v) (web : v.isHttp = true)
    (made : r.child name = .ok new) : v.IsNormal ∧ HasUrl c new v.asDirectory := by
  obtain ⟨special, notFile⟩ := Url.isSpecial_of_isHttp web
  rw [(child_eq_ok_iff_of_leadsTo leads).mp made]
  obtain ⟨w, url, joined⟩ := leads
  cases h.url_eq.symm.trans url
  have normal := h.normal.join joined special notFile
  exact ⟨normal, h.client, normal.asDirectory, rfl⟩

theorem hasUrl_root (http : c.base.isHttp = true) : HasUrl c (root c) c.base := by
  obtain ⟨address, read⟩ := c.isRead
  obtain ⟨special, notFile⟩ := Url.isSpecial_of_isHttp http
  exact ⟨rfl, Url.isNormal_of_parse read special notFile, rfl⟩

/-- Whatever is reached has the address that its URL is written as, and below the root the path of
this URL is closed. -/
theorem Reached.exists_hasUrl {names : List String} (h : Reached c names r)
    (http : c.base.isHttp = true) :
    ∃ u, HasUrl c r u ∧ (names ≠ [] → ∃ v : Url, v.IsNormal ∧ u = v.asDirectory) := by
  induction h with
  | root => exact ⟨c.base, hasUrl_root http, fun some => absurd rfl some⟩
  | step reached leads web made ih =>
      obtain ⟨u, hasUrl, -⟩ := ih
      obtain ⟨normal, below⟩ := hasUrl.below leads web made
      exact ⟨_, below, fun _ => ⟨_, normal, rfl⟩⟩

/-- The empty name leads from a directory to the same place. -/
theorem HasUrl.child_empty (h : HasUrl c r v.asDirectory) (normal : v.IsNormal) :
    ∃ new, r.child "" = .ok new ∧ new.address = v.asDirectory.withoutFragment.text := by
  have leads : r.LeadsTo "" v.asDirectory.withoutFragment :=
    ⟨_, h.url_eq, h.normal.join_empty⟩
  refine ⟨_, (child_eq_ok_iff_of_leadsTo leads).mpr rfl, ?_⟩
  have closed : v.asDirectory.withoutFragment.asDirectory = v.asDirectory.withoutFragment := by
    simp only [Url.asDirectory, Url.withoutFragment,
      Url.Path.closed_closed normal.path.tidy.isFlat]
  rw [closed]
  rfl

/-- From the root a name leads to where it is located as a resource. -/
theorem leadsTo_root_iff (http : c.base.isHttp = true) :
    (root c).LeadsTo name v ↔ c.locate name = .ok v := by
  have url := (hasUrl_root http).url_eq
  rw [Client.Invocation.locate_eq_ok_iff]
  constructor
  · rintro ⟨u, url', joined⟩
    cases url.symm.trans url'
    exact joined
  · intro joined
    exact ⟨c.base, url, joined⟩

end Reached

/-- Every resource that names lead to from the root of a client for the web has a URL, and its
address is the text of this URL; below the root the path ends in a slash, and the empty name leads
to the same address without its fragment. From the root a name leads as far as it can be located as
a resource, and to the same place with a slash at the end of the path. -/
theorem reached_address_is_url [HostNames] (c : Client) (http : c.base.isHttp = true) :
    (root c).url = .ok c.base ∧
    (∀ names r, Reached c names r → ∃ u, r.url = .ok u ∧ u.text = r.address ∧
      (names ≠ [] → u.path.text.getLast? = some '/' ∧
        ∃ new, r.child "" = .ok new ∧ new.address = u.withoutFragment.text)) ∧
    ∀ name, ((∃ new, (root c).child name = .ok new) ↔ ∃ v, c.locate name = .ok v) ∧
      ∀ v, c.locate name = .ok v → v.isHttp = true →
        ∃ new, ∃ w : Url, (root c).child name = .ok new ∧ new.address = w.text ∧ w.IsDirectoryOf v := by
  refine ⟨(hasUrl_root http).url_eq, fun names r reached => ?_, fun name => ?_⟩
  · obtain ⟨u, hasUrl, below⟩ := reached.exists_hasUrl http
    refine ⟨u, hasUrl.url_eq, hasUrl.text, fun some => ?_⟩
    obtain ⟨v, normal, rfl⟩ := below some
    exact ⟨normal.path.tidy.getLast?_text_closed, hasUrl.child_empty normal⟩
  · refine ⟨?_, fun v located web => ?_⟩
    · rw [exists_child_iff]
      exact exists_congr fun v => leadsTo_root_iff http
    have leads := (leadsTo_root_iff http).mpr located
    have made := (child_eq_ok_iff_of_leadsTo leads).mpr rfl
    obtain ⟨normal, -⟩ := (hasUrl_root http).below leads web made
    exact ⟨_, v.asDirectory, made, rfl, normal.isDirectoryOf⟩

/-- Two names with a space, dots, slashes of both kinds, a query and a fragment, below a base
address with a password. -/
theorem reached_address_is_url_guarded :
    ∃ r u, Reached Client.guarded ["/a b/%2e/ä?q=1#f", "..\\c/./%7E?x y#'z'"] r ∧
      r.address = "http://u:p@localhost/a%20b/c/%7E/?x%20y#'z'" ∧
      r.url = .ok u ∧ u.text = r.address ∧
      (∃ new, r.child "" = .ok new ∧ new.address = u.withoutFragment.text) ∧
      ∃ new, ∃ v w : Url, Client.guarded.locate "/a b/%2e/ä?q=1#f" = .ok v ∧
        (root Client.guarded).child "/a b/%2e/ä?q=1#f" = .ok new ∧
        new.address = w.text ∧ w.IsDirectoryOf v := by
  have located : Client.guarded.locate "/a b/%2e/ä?q=1#f" = .ok ⟨"http",
      Client.guarded.base.authority, .segments ["a%20b", "%C3%A4"], some "q=1", some "f"⟩ := by
    decide +kernel
  have http : Client.guarded.base.isHttp = true := by decide
  have first := (leadsTo_root_iff http).mpr located
  have made : (root Client.guarded).child "/a b/%2e/ä?q=1#f" =
      .ok (ofAddress Client.guarded "http://u:p@localhost/a%20b/%C3%A4/?q=1#f") :=
    (child_eq_ok_iff_of_leadsTo first).mpr (congrArg _ (by decide +kernel))
  have second : (ofAddress Client.guarded "http://u:p@localhost/a%20b/%C3%A4/?q=1#f").LeadsTo
      "..\\c/./%7E?x y#'z'" ⟨"http", Client.guarded.base.authority,
        .segments ["a%20b", "c", "%7E"], some "x%20y", some "'z'"⟩ :=
    ⟨_, by rfl, by decide +kernel⟩
  have made' : (ofAddress Client.guarded "http://u:p@localhost/a%20b/%C3%A4/?q=1#f").child
      "..\\c/./%7E?x y#'z'" =
      .ok (ofAddress Client.guarded "http://u:p@localhost/a%20b/c/%7E/?x%20y#'z'") :=
    (child_eq_ok_iff_of_leadsTo second).mpr (congrArg _ (by decide +kernel))
  have reached := (Reached.root.step first (by decide) made).step second (by decide) made'
  obtain ⟨-, addresses, below⟩ := reached_address_is_url Client.guarded http
  obtain ⟨u, url, text, directory⟩ := addresses _ _ reached
  obtain ⟨new, w, child, address, isDirectory⟩ := (below _).2 _ located (by decide)
  exact ⟨_, u, reached, rfl, url, text, (directory (by decide)).2, new, _, w, located, child,
    address, isDirectory⟩

end Resource

end RegionApi
