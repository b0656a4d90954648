import RegionApi.Proofs.Except
import RegionApi.Url.Resolve

/-!
# What a reference resolves to

A URL that resolving brings is of one of four kinds, `Resolved`: it has its scheme and authority
from the base, or an authority of its own, or it is a file URL, or it has no authority at all.
Every kind keeps what makes a URL of the web fit to be sent to, `IsRegular`: its path has a
hierarchy and it names a host. So everything that is ever resolved, from texts that stand alone on,
is regular.
-/

namespace RegionApi.Url

variable [HostNames]

/-- Whether the query of a URL is one that a reference gives. -/
def HasGivenQuery (u : Url) : Prop := ∃ r : Reference, u.query = r.queryText (isSpecial u.scheme)

/-- Whether the fragment of a URL is one that a reference gives. -/
def HasGivenFragment (u : Url) : Prop := ∃ r : Reference, u.fragment = r.fragmentText

/-- What resolving makes of a reference. -/
inductive Resolved (base : Option Url) (u : Url) : Prop where
  /-- Scheme and authority are those of the base. -/
  | inherited (b : Url) (isBase : base = some b) (scheme : u.scheme = b.scheme)
      (authority : u.authority = b.authority)
      (path : u.path = b.path ∨ ∃ directory cs, directory ⊆ b.path.directory ∧
        u.path = .along (isSpecial u.scheme) directory cs)
      (query : u.query = b.query ∨ u.HasGivenQuery) (fragment : u.HasGivenFragment)
  /-- The reference has an authority. -/
  | addressed (a : Authority) (last : Bool) (cs rest : List Char)
      (read : readAuthority u.scheme last cs = .ok (a, rest)) (authority : u.authority = some a)
      (path : u.path = pathAfterAuthority (isSpecial u.scheme) rest)
      (query : u.HasGivenQuery) (fragment : u.HasGivenFragment)
  /-- The reference leads to a file. -/
  | file (host : Host) (names : List String) (query fragment : Option String)
      (isFile : u = File.url host names query fragment)
  /-- The reference has a scheme without rules of its own, and no authority. -/
  | plain (scheme : isSpecial u.scheme = false) (authority : u.authority = none)

/-! ## The kinds, step by step -/

theorem resolved_of_resolveAuthority {base : Option Url} {scheme : String} {r : Reference}
    {cs : List Char} {u : Url} (h : resolveAuthority scheme r cs = .ok u) : Resolved base u := by
  obtain ⟨⟨a, rest⟩, read, h⟩ := bind_eq_ok.mp h
  cases h
  exact .addressed a r.endsWithBody cs rest read rfl rfl ⟨r, rfl⟩ ⟨r, rfl⟩

theorem resolved_of_resolveBody {b : Url} {r : Reference} {cs : List Char} {u : Url}
    (h : resolveBody b r cs = .ok u) : Resolved (some b) u := by
  unfold resolveBody at h
  dsimp only at h
  split at h
  · cases h
    exact .inherited b rfl rfl rfl (.inr ⟨_, _, List.Subset.refl _, rfl⟩) (.inr ⟨r, rfl⟩) ⟨r, rfl⟩
  · cases h
    exact .inherited b rfl rfl rfl (.inr ⟨_, _, List.nil_subset _, rfl⟩) (.inr ⟨r, rfl⟩) ⟨r, rfl⟩
  · exact resolved_of_resolveAuthority h

/-- A reference without a body brings a query or leaves that of the base. -/
theorem resolved_of_queryText {b : Url} (r : Reference) :
    Resolved (some b)
      { b with
        query := (r.queryText (isSpecial b.scheme)).orElse fun _ => b.query
        fragment := r.fragmentText } := by
  refine .inherited b rfl rfl rfl (.inl rfl) ?_ ⟨r, rfl⟩
  cases given : r.queryText (isSpecial b.scheme) with
  | none => exact .inl rfl
  | some q => exact .inr ⟨r, given.symm⟩

theorem resolved_of_resolveRelative {b : Url} {r : Reference} {u : Url}
    (h : resolveRelative b r = .ok u) : Resolved (some b) u := by
  unfold resolveRelative at h
  split at h
  · cases h
    exact resolved_of_queryText r
  · exact resolved_of_resolveBody h

theorem resolved_of_resolvePlain {base : Option Url} {scheme : String} {r : Reference} {u : Url}
    (special : isSpecial scheme = false) (h : resolvePlain scheme r = .ok u) :
    Resolved base u := by
  unfold resolvePlain at h
  dsimp only at h
  split at h
  · exact resolved_of_resolveAuthority h
  · cases h
    exact .plain special rfl
  · cases h
    exact .plain special rfl

omit [HostNames] in
theorem fromRoot_eq (base : Option Url) (host : Host) (cs : List Char)
    (query fragment : Option String) :
    ∃ host' names, File.fromRoot base host cs query fragment =
      File.url host' names query fragment := by
  unfold File.fromRoot
  dsimp only
  split
  · exact ⟨_, _, rfl⟩
  · split <;> exact ⟨_, _, rfl⟩

/-- A reference to a file keeps all of its base but query and fragment, or leads to a file of its
own. -/
theorem resolveFile_cases {base : Option Url} {r : Reference} {u : Url}
    (h : File.resolve base r = .ok u) :
    (∃ b, base = some b ∧
      u = { b with
            query := (r.queryText true).orElse fun _ => b.query
            fragment := r.fragmentText }) ∨
    ∃ host names, u = File.url host names (r.queryText true) r.fragmentText := by
  have fromRoot : ∀ {host cs},
      Except.ok (ε := Fault) (File.fromRoot base host cs (r.queryText true) r.fragmentText) = .ok u →
        ∃ host names, u = File.url host names (r.queryText true) r.fragmentText := by
    intro host cs h
    obtain ⟨host', names, eq⟩ := fromRoot_eq base host cs (r.queryText true) r.fragmentText
    cases h
    exact ⟨host', names, eq⟩
  unfold File.resolve at h
  dsimp only at h
  split at h
  · split at h
    · rename_i b
      cases h
      exact .inl ⟨b, rfl, rfl⟩
    · cases h
      exact .inr ⟨_, _, rfl⟩
  · right
    split at h
    · split at h
      · split at h
        · split at h
          · cases h
            exact ⟨_, _, rfl⟩
          · split at h <;>
              · obtain ⟨host, -, h⟩ := bind_eq_ok.mp h
                cases h
                exact ⟨_, _, rfl⟩
        · exact fromRoot h
      · exact fromRoot h
    · split at h
      · split at h <;>
          · cases h
            exact ⟨_, _, rfl⟩
      · cases h
        exact ⟨_, _, rfl⟩

theorem resolved_of_resolveFile {base : Option Url} {r : Reference} {u : Url}
    (isFile : ∀ b, base = some b → b.scheme = "file") (h : File.resolve base r = .ok u) :
    Resolved base u := by
  rcases resolveFile_cases h with ⟨b, isBase, rfl⟩ | ⟨host, names, rfl⟩
  · have special : isSpecial b.scheme = true := by
      rw [isFile b isBase]
      decide
    have resolved := resolved_of_queryText (b := b) r
    rw [special, ← isBase] at resolved
    exact resolved
  · exact .file host names _ _ rfl

theorem Resolved.of_filter {base : Option Url} {p : Url → Bool} {u : Url}
    (h : Resolved (base.filter p) u) : Resolved base u := by
  cases h with
  | inherited b isBase scheme authority path query fragment =>
      exact .inherited b (Option.eq_some_of_filter_eq_some isBase) scheme authority path query
        fragment
  | addressed a last cs rest read authority path query fragment =>
      exact .addressed a last cs rest read authority path query fragment
  | file host names query fragment isFile => exact .file host names query fragment isFile
  | plain scheme authority => exact .plain scheme authority

theorem resolved_of_resolveScheme {base : Option Url} {scheme : String} {r : Reference} {u : Url}
    (h : resolveScheme base scheme r = .ok u) : Resolved base u := by
  unfold resolveScheme at h
  split at h
  · refine (resolved_of_resolveFile (fun b isBase => ?_) h).of_filter
    simpa using Option.filter_eq_some_iff.mp isBase |>.2
  · split at h
    · split at h
      · split at h
        · exact resolved_of_resolveRelative h
        · exact resolved_of_resolveAuthority h
      · exact resolved_of_resolveAuthority h
    · rename_i special
      exact resolved_of_resolvePlain (Bool.eq_false_iff.mpr special) h

theorem resolved_of_resolveWithoutScheme {base : Option Url} {cs : List Char} {u : Url}
    (h : resolveWithoutScheme base cs = .ok u) : Resolved base u := by
  unfold resolveWithoutScheme at h
  split at h
  · cases h
  · rename_i b
    dsimp only at h
    split at h
    · cases h
      exact .inherited b rfl rfl rfl (.inl rfl) (.inl rfl) ⟨_, rfl⟩
    · split at h
      · cases h
      · split at h
        · rename_i isFile
          refine resolved_of_resolveFile ?_ h
          rintro b' ⟨⟩
          exact isFile
        · exact resolved_of_resolveRelative h

/-- Whatever is resolved is of one of the four kinds. -/
theorem resolved_of_resolve {base : Option Url} {s : String} {u : Url}
    (h : resolve base s = .ok u) : Resolved base u := by
  unfold resolve at h
  split at h
  · exact resolved_of_resolveScheme h
  · exact resolved_of_resolveWithoutScheme h

/-! ## Schemes and hosts of the web -/

omit [HostNames] in
theorem isSpecial_of_isHttp {u : Url} (h : u.isHttp = true) :
    isSpecial u.scheme = true ∧ u.scheme ≠ "file" := by
  rcases Bool.or_eq_true_iff.mp h with h | h <;>
  · rw [of_decide_eq_true h]
    decide

omit [HostNames] in
theorem Host.ne_empty_of_readBracketed {cs : List Char} {h : Host}
    (ok : readBracketed cs = .ok h) : h ≠ .empty := by
  rintro rfl
  unfold readBracketed at ok
  split at ok
  · split at ok <;> cases ok
  · cases ok

theorem Host.ne_empty_of_readName {cs : List Char} {h : Host} (ok : readName cs = .ok h) :
    h ≠ .empty := by
  rintro rfl
  unfold readName at ok
  split at ok
  · unfold readAscii at ok
    split at ok
    · cases ok
    · split at ok
      · cases ok
      · split at ok
        · split at ok <;> cases ok
        · cases ok
  · cases ok

/-- A host of a web scheme is never left out. -/
theorem Host.ne_empty_of_read {cs : List Char} {h : Host} (ok : read cs = .ok h) :
    h ≠ .empty := by
  unfold read at ok
  split at ok
  · exact ne_empty_of_readBracketed ok
  · split at ok
    · exact ne_empty_of_readName ok
    · cases ok

theorem host_ne_empty_of_readHostPort {scheme : String} {userInfo : String × Option String}
    {cs rest : List Char} {a : Authority} (special : isSpecial scheme = true)
    (h : readHostPort scheme userInfo cs = .ok (a, rest)) : a.host ≠ .empty := by
  obtain ⟨host, read, h⟩ := bind_eq_ok.mp h
  split at h
  · cases h
  · obtain ⟨⟨port, left⟩, -, h⟩ := bind_eq_ok.mp h
    cases h
    rw [readHost, if_pos special] at read
    split at read
    · cases read
    · exact Host.ne_empty_of_read read

theorem host_ne_empty_of_readAuthority {scheme : String} {last : Bool} {cs rest : List Char}
    {a : Authority} (special : isSpecial scheme = true)
    (h : readAuthority scheme last cs = .ok (a, rest)) : a.host ≠ .empty := by
  unfold readAuthority at h
  dsimp only at h
  split at h
  · cases h
  · obtain ⟨⟨b, left⟩, read, h⟩ := bind_eq_ok.mp h
    cases h
    exact host_ne_empty_of_readHostPort special read

/-! ## Regular URLs -/

/-- What a URL of the web needs to be sent to. A file URL need not name a host. -/
structure IsRegular (u : Url) : Prop where
  path : isSpecial u.scheme = true → u.path.isFlat = false
  host : isSpecial u.scheme = true → u.scheme ≠ "file" → ∃ h, u.host? = some h

omit [HostNames] in
theorem isFlat_pathAfterAuthority {special : Bool} (h : special = true) (cs : List Char) :
    (pathAfterAuthority special cs).isFlat = false := by
  subst h
  cases cs with
  | nil => rfl
  | cons c cs => rfl

omit [HostNames] in
theorem host?_eq_some {u : Url} {a : Authority} (authority : u.authority = some a)
    (h : a.host ≠ .empty) : u.host? = some a.host := by
  rw [host?, authority]
  exact if_neg h

/-- Resolving against a regular base, or none, brings a regular URL. -/
theorem Resolved.isRegular {base : Option Url} {u : Url} (h : Resolved base u)
    (regular : ∀ b, base = some b → b.IsRegular) : u.IsRegular := by
  cases h with
  | inherited b isBase scheme authority path =>
      have hb := regular b isBase
      refine ⟨fun special => ?_, fun special notFile => ?_⟩
      · rcases path with path | ⟨directory, cs, -, path⟩
        · rw [path]
          exact hb.path (scheme ▸ special)
        · rw [path]
          rfl
      · obtain ⟨host, named⟩ := hb.host (scheme ▸ special) (scheme ▸ notFile)
        exact ⟨host, by rw [← named, host?, host?, authority]⟩
  | addressed a last cs rest read authority path =>
      refine ⟨fun special => ?_, fun special _ => ?_⟩
      · rw [path]
        exact isFlat_pathAfterAuthority special rest
      · exact ⟨a.host, host?_eq_some authority (host_ne_empty_of_readAuthority special read)⟩
  | file host names query fragment isFile =>
      subst isFile
      exact ⟨fun _ => rfl, fun _ notFile => absurd rfl notFile⟩
  | plain scheme authority =>
      refine ⟨fun special => ?_, fun special _ => ?_⟩ <;>
      · rw [scheme] at special
        cases special

/-- A URL that has been read is regular. -/
theorem isRegular_of_parse {s : String} {u : Url} (h : parse s = .ok u) : u.IsRegular :=
  (resolved_of_resolve h).isRegular (by rintro b ⟨⟩)

/-- A reference to be resolved against a regular base leads to a regular URL. -/
theorem IsRegular.join {base u : Url} {s : String} (regular : base.IsRegular)
    (h : base.join s = .ok u) : u.IsRegular := by
  apply (resolved_of_resolve h).isRegular
  rintro b ⟨⟩
  exact regular

end RegionApi.Url
