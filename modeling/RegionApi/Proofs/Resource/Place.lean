import RegionApi.Proofs.Resource.Descent
import RegionApi.Proofs.Url.Absolute

/-!
# Children with a single name

A name without slashes, a query or a fragment is still read as a reference. One that begins with a
scheme, as the identifiers do that have letters before their first colon, leads to that scheme;
every other one leads to the server of the parent (`child_isAtServerOf_iff`).
-/

namespace RegionApi.Resource

/-- The characters that end a name in a reference. -/
def separators : List Char := ['/', '\\', '?', '#']

/-- Whether a resource has a URL, with scheme, host and port of another one. -/
def IsAtServerOf [HostNames] (r : Resource) (u : Url) : Prop :=
  ∃ w, r.url = .ok w ∧ w.scheme = u.scheme ∧ w.host? = u.host? ∧ w.port? = u.port?

section Single

variable [HostNames] {r new : Resource} {u : Url} {name : String}

/-- What is found by a name that begins with a scheme has a URL of this scheme, if it has one. -/
theorem scheme_of_child {scheme : String} {behind : List Char} {w : Url}
    (absolute : Url.IsAbsolute (Url.cleaned name) scheme behind) (made : r.child name = .ok new)
    (url : new.url = .ok w) : w.scheme = scheme := by
  obtain ⟨v, u, parent, joined⟩ := exists_child_iff.mp ⟨new, made⟩
  obtain rfl := (child_eq_ok_iff_of_leadsTo ⟨u, parent, joined⟩).mp made
  have told : v.scheme = scheme := Url.scheme_of_isAbsolute joined absolute
  rw [← told] at absolute ⊢
  exact Url.scheme_of_resolve_text (u := v.asDirectory) absolute
    (Client.Invocation.locate_eq_ok_iff.mp url)

/-- A single name that begins with no scheme but perhaps that of the parent leads to a resource of
the same server. -/
theorem exists_child_isAtServerOf (url : r.url = .ok u) (http : u.isHttp = true)
    (single : ∀ c ∈ separators, c ∉ name.toList) (keeps : u.KeepsScheme name) :
    ∃ new, r.child name = .ok new ∧ new.IsAtServerOf u := by
  have normal := isNormal_of_url url http
  obtain ⟨v, joined, within⟩ := Url.exists_join_of_single http normal.path.tidy
    (single '/' (by decide)) (single '\\' (by decide)) keeps
  obtain ⟨special, notFile⟩ := Url.isSpecial_of_isHttp http
  have directory : v.asDirectory.IsNormal :=
    (normal.join joined (within.scheme ▸ special) (within.scheme ▸ notFile)).asDirectory
  have hasUrl : HasUrl r.client (ofAddress r.client v.asDirectory.text) v.asDirectory :=
    ⟨rfl, directory, rfl⟩
  have authority : v.asDirectory.authority = u.authority := within.authority
  refine ⟨_, (child_eq_ok_iff_of_leadsTo ⟨u, url, joined⟩).mpr rfl, _, hasUrl.url_eq,
    within.scheme, ?_, ?_⟩
  · rw [Url.host?, Url.host?, authority]
  · rw [Url.port?, Url.port?, authority]

end Single

/-- Below a resource of the web, what a single name leads to has a URL with scheme, host and port
of the parent exactly if the name, less what is ignored in it, begins with no scheme but perhaps
that of the parent. With another scheme in front it has a URL of that scheme, if any; in all other
cases there is a resource. -/
theorem child_isAtServerOf_iff [HostNames] (r : Resource) (u : Url) (name : String)
    (url : r.url = .ok u) (http : u.isHttp = true) (single : ∀ c ∈ separators, c ∉ name.toList) :
    (∀ new, r.child name = .ok new →
      (new.IsAtServerOf u ↔ u.KeepsScheme name) ∧
      ∀ scheme behind, Url.IsAbsolute (Url.cleaned name) scheme behind →
        ∀ w, new.url = .ok w → w.scheme = scheme) ∧
    (u.KeepsScheme name → ∃ new, r.child name = .ok new) := by
  refine ⟨fun new made => ⟨⟨?_, fun keeps => ?_⟩, ?_⟩, fun keeps => ?_⟩
  · rintro ⟨w, located, same, -⟩ scheme behind absolute
    exact (scheme_of_child absolute made located).symm.trans same
  · obtain ⟨other, made', isAt⟩ := exists_child_isAtServerOf url http single keeps
    obtain rfl := Except.ok.inj (made.symm.trans made')
    exact isAt
  · exact fun scheme behind absolute w located => scheme_of_child absolute made located
  · obtain ⟨new, made, -⟩ := exists_child_isAtServerOf url http single keeps
    exact ⟨new, made⟩

/-- An identifier of digits and letters with colons that begins with a digit. -/
theorem child_isAtServerOf_iff_digits :
    ∃ new, (root Client.loopback).child "00:16:3e:aa:bb:cc" = .ok new ∧
      new.address = "http://localhost/00:16:3e:aa:bb:cc/" ∧
      new.IsAtServerOf Client.loopback.base := by
  have http : Client.loopback.base.isHttp = true := by decide
  have clean : Url.cleaned "00:16:3e:aa:bb:cc" = "00:16:3e:aa:bb:cc".toList := by decide
  have schemeless : ¬ Url.HasScheme (Url.cleaned "00:16:3e:aa:bb:cc") :=
    Url.splitScheme?_eq_none_iff.mp (by rw [clean]; decide)
  obtain ⟨made, exists_made⟩ := child_isAtServerOf_iff (root Client.loopback) _
    "00:16:3e:aa:bb:cc" (hasUrl_root http).url_eq http (by simp [separators])
  have keeps : Client.loopback.base.KeepsScheme "00:16:3e:aa:bb:cc" :=
    fun scheme behind absolute =>
      absurd (Url.hasScheme_iff.mpr ⟨scheme, behind, absolute⟩) schemeless
  obtain ⟨new, child⟩ := exists_made keeps
  have address : ((root Client.loopback).child "00:16:3e:aa:bb:cc").map address =
      .ok "http://localhost/00:16:3e:aa:bb:cc/" := by decide +kernel
  rw [child] at address
  exact ⟨new, child, Except.ok.inj address, (made new child).1.mpr keeps⟩

/-- An identifier of the same kind that begins with a letter is taken for a scheme and what follows
it, and so is no child of the server. -/
theorem not_isAtServerOf_letters :
    (root Client.loopback).url = .ok Client.loopback.base ∧
      Client.loopback.base.isHttp = true ∧
      (∀ c ∈ separators, c ∉ "aa:bb:cc:dd:ee:ff".toList) ∧
      ∃ new, (root Client.loopback).child "aa:bb:cc:dd:ee:ff" = .ok new ∧
        new.address = "aa:bb:cc:dd:ee:ff/" ∧ ¬ new.IsAtServerOf Client.loopback.base := by
  have absolute : Url.IsAbsolute (Url.cleaned "aa:bb:cc:dd:ee:ff") "aa" "bb:cc:dd:ee:ff".toList :=
    Url.splitScheme?_eq_some_iff.mp (by decide)
  have made : (root Client.loopback).child "aa:bb:cc:dd:ee:ff" =
      .ok (ofAddress Client.loopback "aa:bb:cc:dd:ee:ff/") := by rfl
  refine ⟨(hasUrl_root (by decide)).url_eq, by decide, by simp [separators], _, made, rfl, ?_⟩
  rintro ⟨w, located, scheme, -⟩
  rw [scheme_of_child absolute made located] at scheme
  exact absurd scheme (by decide)

end RegionApi.Resource
