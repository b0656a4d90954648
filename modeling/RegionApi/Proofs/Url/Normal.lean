import RegionApi.Proofs.Url.Authority
import RegionApi.Proofs.Url.Path
import RegionApi.Proofs.Url.Resolve

/-!
# URLs of the web in their normal spelling

Every URL of the web that resolving brings is in its normal spelling (`isNormal_of_parse`,
`IsNormal.join`), and so it stays when its path is closed (`IsNormal.asDirectory`). A URL in its
normal spelling is what its text means, against any base and against none
(`IsNormal.resolve_text`).
-/

namespace RegionApi.Url

/-! ## Paths -/

namespace Path

/-- Whether a segment is in the spelling in which it is written, with slashes of neither kind. -/
structure IsWritten (s : String) : Prop where
  kept : Escape.IsKept Escape.path s
  whole : '\\' ∉ s.toList

theorem isWritten_empty : IsWritten "" := ⟨Escape.isKept_empty _, by decide⟩

/-- Whether a path begins at the root, and its segments are names in their written spelling. -/
structure IsNormal (p : Path) : Prop where
  tidy : p.IsTidy
  written : ∀ names, p = segments names → ∀ s ∈ names, IsWritten s

theorem mem_up {inner : List String} {s : String} (h : s ∈ up inner) : s ∈ inner := by
  unfold up at h
  split at h
  · exact h
  · split at h
    · exact h
    · exact List.mem_cons_of_mem _ h

/-- A walk comes to nothing but what it starts from, what it goes along, and an empty end. -/
theorem mem_walk {inner names : List String} {s : String} (h : s ∈ walk inner names) :
    s = "" ∨ s ∈ inner ∨ s ∈ names := by
  fun_induction walk inner names with
  | case1 inner =>
      rw [List.mem_reverse, List.mem_cons] at h
      exact h.imp_right .inl
  | case2 inner d goesUp =>
      rw [List.mem_reverse, List.mem_cons] at h
      exact h.imp_right fun h => .inl (mem_up h)
  | case3 inner d notUp stays =>
      rw [List.mem_reverse, List.mem_cons] at h
      exact h.imp_right .inl
  | case4 inner d notUp moves =>
      rw [List.mem_reverse, List.mem_cons] at h
      rcases h with rfl | h
      · exact .inr (.inr List.mem_cons_self)
      · exact .inr (.inl h)
  | case5 inner d rest _ goesUp ih =>
      exact (ih h).imp_right (Or.imp mem_up (List.mem_cons_of_mem d))
  | case6 inner d rest _ notUp stays ih =>
      exact (ih h).imp_right (Or.imp_right (List.mem_cons_of_mem d))
  | case7 inner d rest _ notUp moves ih =>
      rcases ih h with empty | h | h
      · exact .inl empty
      · rcases List.mem_cons.mp h with rfl | h
        · exact .inr (.inr List.mem_cons_self)
        · exact .inr (.inl h)
      · exact .inr (.inr (List.mem_cons_of_mem d h))

/-- The segments of a reference are written when they are split, in the schemes of the web. -/
theorem isWritten_of_mem_split {cs : List Char} {s : String} (h : s ∈ split true cs) :
    IsWritten s := by
  obtain ⟨part, hpart, rfl⟩ := List.mem_map.mp h
  refine ⟨Escape.isKept_text Escape.keepsEscapes_path part, ?_⟩
  rw [Escape.text, String.toList_ofList]
  refine Text.Percent.notMem_encodeChars (by decide) (by decide) fun slash => ?_
  have separates := Text.eq_false_of_mem_splitOnP hpart '\\' slash
  simp at separates

/-- A path along a reference is normal if the directory it starts from is. -/
theorem isNormal_along {directory : List String} (name : ∀ s ∈ directory, IsName s)
    (written : ∀ s ∈ directory, IsWritten s) (cs : List Char) :
    (along true directory cs).IsNormal := by
  refine ⟨isTidy_along name true cs, ?_⟩
  rintro names ⟨⟩ s hs
  rcases mem_walk hs with rfl | hs | hs
  · exact isWritten_empty
  · exact written s (List.mem_reverse.mp hs)
  · exact isWritten_of_mem_split hs

theorem IsNormal.isWritten_of_mem_directory {p : Path} (h : p.IsNormal) :
    ∀ s ∈ p.directory, IsWritten s := by
  cases p with
  | flat s => exact h.tidy.elim
  | segments names => exact fun s hs => h.written names rfl s (List.dropLast_subset names hs)

/-- A slash at its end leaves a path normal. -/
theorem IsNormal.closed {p : Path} (h : p.IsNormal) : p.closed.IsNormal := by
  cases p with
  | flat s => exact h.tidy.elim
  | segments names =>
      by_cases last : names.getLast? = some ""
      · have closed : (segments names).closed = segments names := if_pos last
        rw [closed]
        exact h
      · have closed : (segments names).closed = segments (names ++ [""]) := if_neg last
        rw [closed]
        refine ⟨⟨by simp, ?_⟩, ?_⟩
        · exact List.forall_mem_append.mpr ⟨h.tidy.2, by simpa using isName_empty⟩
        · rintro _ ⟨⟩
          exact List.forall_mem_append.mpr ⟨h.written names rfl, by simpa using isWritten_empty⟩

/-- A walk along names comes by each of them. -/
theorem walk_eq_append {inner names : List String} (some : names ≠ [])
    (name : ∀ s ∈ names, IsName s) : walk inner names = inner.reverse ++ names := by
  fun_induction walk inner names with
  | case1 inner => exact absurd rfl some
  | case2 inner s goesUp => simp [(name s List.mem_cons_self).dotDot] at goesUp
  | case3 inner s notUp stays => simp [(name s List.mem_cons_self).dot] at stays
  | case4 inner s notUp moves => simp
  | case5 inner s rest _ goesUp => simp [(name s List.mem_cons_self).dotDot] at goesUp
  | case6 inner s rest _ notUp stays => simp [(name s List.mem_cons_self).dot] at stays
  | case7 inner s rest more notUp moves ih =>
      rw [ih (fun none => more none) (List.forall_mem_cons.mp name).2]
      simp

/-- Names in their written spelling are found again between slashes. -/
theorem split_intercalate {names : List String} (some : names ≠ []) (name : ∀ s ∈ names, IsName s)
    (written : ∀ s ∈ names, IsWritten s) :
    split true (['/'].intercalate (names.map String.toList)) = names := by
  have parts : (['/'].intercalate (names.map String.toList)).splitOnP
      (fun c => c = '/' || (true && c = '\\')) = names.map String.toList := by
    refine Text.splitOnP_intercalate (by decide) (by simpa using some) ?_
    intro part hpart c hc
    obtain ⟨s, hs, rfl⟩ := List.mem_map.mp hpart
    have slash : c ≠ '/' := fun slash => (name s hs).whole (slash ▸ hc)
    have backslash : c ≠ '\\' := fun backslash => (written s hs).whole (backslash ▸ hc)
    simp [slash, backslash]
  rw [split, parts, List.map_map]
  refine (List.map_congr_left fun s hs => ?_).trans (List.map_id _)
  exact Escape.text_eq_of_isKept (written s hs).kept

/-- A normal path is read back from its text behind an authority. -/
theorem IsNormal.pathAfterAuthority_text {p : Path} (h : p.IsNormal) :
    pathAfterAuthority true p.text = p := by
  cases p with
  | flat s => exact h.tidy.elim
  | segments names =>
      obtain ⟨some, name⟩ := h.tidy
      have written := h.written names rfl
      obtain ⟨s, rest, rfl⟩ := List.exists_cons_of_ne_nil some
      have text : (segments (s :: rest)).text =
          '/' :: ['/'].intercalate ((s :: rest).map String.toList) := by
        rw [text_segments, List.map_cons, List.intercalate_cons_cons]
        rfl
      have names := split_intercalate some name written
      rw [text]
      show along true [] (if isSlash true '/' then _ else _) = _
      rw [if_pos (by decide), along, names, List.reverse_nil, walk_eq_append some name,
        List.reverse_nil, List.nil_append]

/-- The characters of a normal path can be seen, and end it nowhere. -/
theorem IsNormal.of_mem_text {p : Path} (h : p.IsNormal) {c : Char} (hc : c ∈ p.text) :
    Escape.isPlain c = true ∧ c ≠ '?' ∧ c ≠ '#' := by
  cases p with
  | flat s => exact h.tidy.elim
  | segments names =>
      obtain ⟨s, hs, hc⟩ := List.mem_flatMap.mp hc
      rcases List.mem_cons.mp hc with rfl | hc
      · decide
      · have kept := (h.written names rfl s hs).kept
        refine ⟨Escape.isPlain_of_path (kept c hc), ?_, ?_⟩
        · rintro rfl
          exact kept.notMem (by decide) hc
        · rintro rfl
          exact kept.notMem (by decide) hc

end Path

/-! ## URLs -/

/-- Whether a URL of the web is in its normal spelling. -/
structure IsNormal [HostNames] (u : Url) : Prop where
  special : isSpecial u.scheme = true
  notFile : u.scheme ≠ "file"
  authority : ∃ a, u.authority = some a ∧ a.IsNormal u.scheme
  path : u.path.IsNormal
  query : ∀ q, u.query = some q → Escape.IsKept (Escape.query true) q
  fragment : ∀ f, u.fragment = some f → Escape.IsKept Escape.fragment f

section What

variable {u : Url}

theorem HasGivenQuery.isKept (h : u.HasGivenQuery) (special : isSpecial u.scheme = true) :
    ∀ q, u.query = some q → Escape.IsKept (Escape.query true) q := by
  obtain ⟨r, given⟩ := h
  intro q hq
  rw [given, special] at hq
  obtain ⟨cs, -, rfl⟩ := Option.map_eq_some_iff.mp hq
  exact Escape.isKept_text (Escape.keepsEscapes_query true) cs

theorem HasGivenFragment.isKept (h : u.HasGivenFragment) :
    ∀ f, u.fragment = some f → Escape.IsKept Escape.fragment f := by
  obtain ⟨r, given⟩ := h
  intro f hf
  rw [given] at hf
  obtain ⟨cs, -, rfl⟩ := Option.map_eq_some_iff.mp hf
  exact Escape.isKept_text Escape.keepsEscapes_fragment cs

theorem isNormal_pathAfterAuthority (cs : List Char) :
    (pathAfterAuthority true cs).IsNormal := by
  cases cs with
  | nil =>
      refine ⟨⟨List.cons_ne_nil _ _, by simpa using Path.isName_empty⟩, ?_⟩
      rintro _ ⟨⟩ s hs
      rw [List.mem_singleton.mp hs]
      exact Path.isWritten_empty
  | cons c cs => exact Path.isNormal_along (by simp) (by simp) _

variable [HostNames]

/-- What resolving brings is in its normal spelling if the base is, should the scheme come from
there. -/
theorem Resolved.isNormal {base : Option Url} (h : Resolved base u)
    (special : isSpecial u.scheme = true) (notFile : u.scheme ≠ "file")
    (normal : ∀ b, base = some b → b.scheme = u.scheme → b.IsNormal) : u.IsNormal := by
  cases h with
  | inherited b isBase scheme authority path query fragment =>
      have hb := normal b isBase scheme.symm
      refine ⟨special, notFile, ?_, ?_, ?_, fragment.isKept⟩
      · rw [authority, scheme]
        exact hb.authority
      · rcases path with path | ⟨directory, cs, within, path⟩
        · rw [path]
          exact hb.path
        · rw [path, special]
          exact Path.isNormal_along
            (fun s hs => hb.path.tidy.forall_isName_directory s (within hs))
            (fun s hs => hb.path.isWritten_of_mem_directory s (within hs)) cs
      · rcases query with query | query
        · rw [query]
          exact hb.query
        · exact query.isKept special
  | addressed a last cs rest read authority path query fragment =>
      refine ⟨special, notFile, ⟨a, authority, ?_⟩, ?_, query.isKept special, fragment.isKept⟩
      · exact Authority.isNormal_of_readAuthority special read
      · rw [path, special]
        exact isNormal_pathAfterAuthority rest
  | file host names query fragment isFile =>
      subst isFile
      exact absurd rfl notFile
  | plain plain _ =>
      rw [special] at plain
      cases plain

/-- A URL of the web that has been read is in its normal spelling. -/
theorem isNormal_of_parse {s : String} (h : parse s = .ok u) (special : isSpecial u.scheme = true)
    (notFile : u.scheme ≠ "file") : u.IsNormal :=
  (resolved_of_resolve h).isNormal special notFile (by rintro b ⟨⟩)

/-- Against a base in its normal spelling every reference leads to a URL in its normal spelling, if
it leads to one of the web. -/
theorem IsNormal.join {base : Url} {s : String} (normal : base.IsNormal) (h : base.join s = .ok u)
    (special : isSpecial u.scheme = true) (notFile : u.scheme ≠ "file") : u.IsNormal := by
  apply (resolved_of_resolve h).isNormal special notFile
  rintro b ⟨⟩ _
  exact normal

theorem IsNormal.asDirectory (normal : u.IsNormal) : u.asDirectory.IsNormal :=
  ⟨normal.special, normal.notFile, normal.authority, normal.path.closed, normal.query,
    normal.fragment⟩

end What

/-! ## Reading a URL back -/

/-- What can be seen is dropped nowhere in a text. -/
theorem seen_of_isPlain {c : Char} (h : Escape.isPlain c = true) :
    isMargin c = false ∧ isBreak c = false := by
  have least : 0x20 < c.toNat := by
    simp only [Escape.isPlain, Bool.and_eq_true, decide_eq_true_eq] at h
    exact h.1
  have ne {d : Char} (low : d.toNat ≤ 0x20) : c ≠ d := by
    rintro rfl
    omega
  simp [isMargin, isBreak, least, ne (d := '\t') (by decide), ne (d := '\n') (by decide),
    ne (d := '\r') (by decide)]

/-- Nothing is dropped from a text whose characters can all be seen. -/
theorem cleaned_of_isPlain {s : String} (h : ∀ c ∈ s.toList, Escape.isPlain c = true) :
    cleaned s = s.toList := by
  have untrimmed {cs : List Char} (plain : ∀ c ∈ cs, Escape.isPlain c = true) :
      cs.dropWhile isMargin = cs := by
    cases cs with
    | nil => rfl
    | cons c cs =>
        refine List.dropWhile_cons_of_neg ?_
        simp [(seen_of_isPlain (plain c List.mem_cons_self)).1]
  unfold cleaned
  rw [untrimmed h, untrimmed fun c hc => h c (List.mem_reverse.mp hc), List.reverse_reverse]
  refine List.filter_eq_self.mpr fun c hc => ?_
  simp [(seen_of_isPlain (h c hc)).2]

/-- The schemes of the web are read back. -/
theorem splitScheme?_append {scheme : String} (special : isSpecial scheme = true)
    (rest : List Char) : splitScheme? (scheme.toList ++ ':' :: rest) = some (scheme, rest) := by
  rw [isSpecial, List.contains_iff_mem] at special
  simp only [List.mem_cons, List.not_mem_nil, or_false] at special
  rcases special with rfl | rfl | rfl | rfl | rfl | rfl <;> rfl

/-- Body, query and fragment of a reference are found again. -/
theorem ofChars_append {body : List Char} {query fragment : Option String}
    (mark : '?' ∉ body) (hash : '#' ∉ body ++ marked '?' query) :
    Reference.ofChars (body ++ marked '?' query ++ marked '#' fragment) =
      ⟨body, query.map String.toList, fragment.map String.toList⟩ := by
  simp only [Reference.ofChars, cut_append_marked hash, cut_append_marked mark]

section Text

variable {u : Url} {a : Authority}

theorem chars_eq (authority : u.authority = some a) :
    u.chars = u.scheme.toList ++ ':' ::
      ('/' :: '/' :: a.bare ++ u.path.text ++ marked '?' u.query ++ marked '#' u.fragment) := by
  simp [chars, beforePath, authority, Authority.text_eq]

theorem isPlain_of_mem_marked {mark c : Char} {part : Option String}
    (visible : Escape.isPlain mark = true)
    (kept : ∀ s, part = some s → ∀ c ∈ s.toList, Escape.isPlain c = true)
    (hc : c ∈ marked mark part) : Escape.isPlain c = true := by
  cases part with
  | none => cases hc
  | some s =>
      rcases List.mem_cons.mp hc with rfl | hc
      · exact visible
      · exact kept s rfl c hc

theorem isPlain_of_mem_scheme {scheme : String} (special : isSpecial scheme = true) :
    ∀ c ∈ scheme.toList, Escape.isPlain c = true := by
  have plain : ["http", "https", "ws", "wss", "ftp", "file"].all
      (fun s => s.toList.all Escape.isPlain) = true := by decide
  exact List.all_eq_true.mp (List.all_eq_true.mp plain scheme (List.contains_iff_mem.mp special))

variable [HostNames]

/-- The text of a URL in its normal spelling can be seen in full. -/
theorem IsNormal.isPlain_of_mem_chars (normal : u.IsNormal) {c : Char} (hc : c ∈ u.chars) :
    Escape.isPlain c = true := by
  obtain ⟨a, authority, normalAuthority⟩ := normal.authority
  rw [chars_eq authority] at hc
  simp only [List.mem_append, List.mem_cons] at hc
  rcases hc with hc | rfl | ((((rfl | rfl | hc) | hc) | hc) | hc)
  · exact isPlain_of_mem_scheme normal.special c hc
  · decide
  · decide
  · decide
  · exact (normalAuthority.isInner_of_mem_bare hc).1
  · exact (normal.path.of_mem_text hc).1
  · exact isPlain_of_mem_marked (by decide)
      (fun q hq c hc => Escape.isPlain_of_query (normal.query q hq c hc)) hc
  · exact isPlain_of_mem_marked (by decide)
      (fun f hf c hc => Escape.isPlain_of_fragment (normal.fragment f hf c hc)) hc

/-- The pieces of a URL behind its scheme. -/
theorem IsNormal.ofChars_eq (normal : u.IsNormal) (normalAuthority : a.IsNormal u.scheme) :
    Reference.ofChars
        ('/' :: '/' :: a.bare ++ u.path.text ++ marked '?' u.query ++ marked '#' u.fragment) =
      ⟨'/' :: '/' :: a.bare ++ u.path.text, u.query.map String.toList,
        u.fragment.map String.toList⟩ := by
  have inner {c : Char} (ends : c ∈ Authority.enders) : c ∉ a.bare := fun hc =>
    (normalAuthority.isInner_of_mem_bare hc).2 ends
  have mark : '?' ∉ '/' :: '/' :: a.bare ++ u.path.text := by
    simp only [List.mem_append, List.mem_cons, not_or]
    exact ⟨⟨by decide, by decide, inner (by decide)⟩,
      fun hc => (normal.path.of_mem_text hc).2.1 rfl⟩
  refine ofChars_append mark ?_
  simp only [List.mem_append, List.mem_cons, not_or]
  refine ⟨⟨⟨by decide, by decide, inner (by decide)⟩,
    fun hc => (normal.path.of_mem_text hc).2.2 rfl⟩, ?_⟩
  cases query : u.query with
  | none => exact List.not_mem_nil
  | some q =>
      refine List.not_mem_cons_of_ne_of_not_mem (by decide) ?_
      exact (normal.query q query).notMem (by decide)

/-- The pieces behind the slashes of an authority make up the URL they come from. -/
theorem IsNormal.resolveAuthority_eq (normal : u.IsNormal) (authority : u.authority = some a)
    (normalAuthority : a.IsNormal u.scheme) :
    resolveAuthority u.scheme
        ⟨'/' :: '/' :: a.bare ++ u.path.text, u.query.map String.toList,
          u.fragment.map String.toList⟩
        (a.bare ++ u.path.text) = .ok u := by
  have ends : ∀ c, u.path.text.head? = some c → isSlash true c = true := by
    intro c hc
    rw [normal.path.tidy.head?_text] at hc
    cases hc
    decide
  have query : (u.query.map String.toList).map (Escape.text (Escape.query true)) = u.query := by
    cases given : u.query with
    | none => rfl
    | some q => simp [Escape.text_eq_of_isKept (normal.query q given)]
  have fragment : (u.fragment.map String.toList).map (Escape.text Escape.fragment) =
      u.fragment := by
    cases given : u.fragment with
    | none => rfl
    | some f => simp [Escape.text_eq_of_isKept (normal.fragment f given)]
  rw [resolveAuthority, normalAuthority.readAuthority_bare normal.special _ ends, ok_bind]
  simp only [normal.special, normal.path.pathAfterAuthority_text, Reference.queryText,
    Reference.fragmentText, query, fragment, ← authority]
  rfl

/-- A URL in its normal spelling is what its text means, whatever the base. -/
theorem IsNormal.resolve_text (normal : u.IsNormal) (base : Option Url) :
    resolve base u.text = .ok u := by
  obtain ⟨a, authority, normalAuthority⟩ := normal.authority
  have text : u.text.toList = u.chars := String.toList_ofList
  have clean : cleaned u.text = u.chars := by
    rw [cleaned_of_isPlain, text]
    rw [text]
    exact fun c hc => normal.isPlain_of_mem_chars hc
  have slash : isSlash true '/' = true := by decide
  obtain ⟨c, cs, chars⟩ := List.exists_cons_of_ne_nil normalAuthority.bare_ne_nil
  have notSlash : isSlash true c = false := by
    have inner := (normalAuthority.isInner_of_mem_bare (chars ▸ List.mem_cons_self)).2
    simp only [Authority.enders, List.mem_cons, not_or] at inner
    simp [isSlash, inner.1, inner.2.1]
  have behind : ('/' :: '/' :: a.bare ++ u.path.text).dropWhile (isSlash true) =
      a.bare ++ u.path.text := by
    simp [chars, slash, notSlash]
  have two : ¬(('/' :: '/' :: a.bare ++ u.path.text).takeWhile (isSlash true)).length < 2 := by
    simp [slash]
  have whole := normal.resolveAuthority_eq authority normalAuthority
  rw [resolve, clean, chars_eq authority, splitScheme?_append normal.special]
  dsimp only
  rw [normal.ofChars_eq normalAuthority]
  unfold resolveScheme
  rw [if_neg normal.notFile, if_pos normal.special]
  cases base with
  | none =>
      dsimp only
      rw [behind, whole]
  | some b =>
      dsimp only
      rw [if_neg fun inherits => two inherits.2, behind, whole]

end Text

end RegionApi.Url
