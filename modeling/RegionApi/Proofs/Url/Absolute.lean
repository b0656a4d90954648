import RegionApi.Proofs.Url.Normal
import RegionApi.Proofs.Url.Relative

/-!
# Absolute references

A reference that begins with a scheme leads to a URL of that scheme or nowhere
(`scheme_of_isAbsolute`), and the text of this URL begins with the scheme again, so that it is read
back with it (`scheme_of_resolve_text`). The scheme of the base may stand before what is relative
otherwise: a reference without slashes that begins with it stays within the base, as one without
any scheme does (`exists_join_of_single`).
-/

namespace RegionApi.Url

/-! ## The scheme of what is resolved -/

section Scheme

variable [HostNames]
variable {base : Option Url} {b u : Url} {r : Reference} {scheme : String} {cs : List Char}

theorem scheme_of_resolveAuthority (h : resolveAuthority scheme r cs = .ok u) :
    u.scheme = scheme := by
  obtain ⟨⟨a, rest⟩, -, h⟩ := bind_eq_ok.mp h
  cases h
  rfl

theorem scheme_of_resolveRelative (h : resolveRelative b r = .ok u) : u.scheme = b.scheme := by
  unfold resolveRelative at h
  split at h
  · cases h
    rfl
  · unfold resolveBody at h
    dsimp only at h
    split at h
    · cases h
      rfl
    · cases h
      rfl
    · exact scheme_of_resolveAuthority h

theorem scheme_of_resolvePlain (h : resolvePlain scheme r = .ok u) : u.scheme = scheme := by
  unfold resolvePlain at h
  dsimp only at h
  split at h
  · exact scheme_of_resolveAuthority h
  all_goals
    cases h
    rfl

theorem scheme_of_resolveFile (isFile : ∀ b, base = some b → b.scheme = "file")
    (h : File.resolve base r = .ok u) : u.scheme = "file" := by
  rcases resolveFile_cases h with ⟨b, isBase, rfl⟩ | ⟨host, names, rfl⟩
  · exact isFile b isBase
  · rfl

theorem scheme_of_resolveScheme (h : resolveScheme base scheme r = .ok u) : u.scheme = scheme := by
  unfold resolveScheme at h
  split at h
  · rename_i file
    rw [file]
    refine scheme_of_resolveFile (fun b isBase => ?_) h
    simpa using (Option.filter_eq_some_iff.mp isBase).2
  · split at h
    · split at h
      · split at h
        · rename_i same
          exact (scheme_of_resolveRelative h).trans same.1
        · exact scheme_of_resolveAuthority h
      · exact scheme_of_resolveAuthority h
    · exact scheme_of_resolvePlain h

/-- A reference that begins with a scheme leads to a URL of this scheme, if it leads anywhere. -/
theorem scheme_of_isAbsolute {s : String} {behind : List Char} (h : resolve base s = .ok u)
    (absolute : IsAbsolute (cleaned s) scheme behind) : u.scheme = scheme := by
  rw [resolve, splitScheme?_eq_some_iff.mpr absolute] at h
  exact scheme_of_resolveScheme h

end Scheme

/-! ## Schemes in texts -/

/-- The characters of a scheme stay such in lower case, and stay as they are from then on. -/
theorem isSchemeChar_toLower {c : Char} (h : isSchemeChar c = true) :
    isSchemeChar c.toLower = true ∧ c.toLower.toLower = c.toLower ∧
      (c.isAlpha = true → c.toLower.isAlpha = true) ∧ Escape.isPlain c.toLower = true := by
  have small : c.toNat < 127 := by
    simp only [isSchemeChar, Bool.or_eq_true, decide_eq_true_eq] at h
    rcases h with ((h | rfl) | rfl) | rfl
    · exact Nat.lt_of_le_of_lt (Text.Percent.toNat_bounds_of_isAlphanum h).2 (by decide)
    all_goals decide
  revert h
  exact Text.of_toNat_lt small (by decide)

theorem isSchemeChar_of_isAlpha {c : Char} (h : c.isAlpha = true) : isSchemeChar c = true := by
  simp [isSchemeChar, Char.isAlphanum, h]

/-- What is read of a scheme is a scheme again, and can be seen in full. -/
theorem IsAbsolute.again {cs behind : List Char} {scheme : String}
    (h : IsAbsolute cs scheme behind) (other : List Char) :
    IsAbsolute (scheme.toList ++ ':' :: other) scheme other ∧
      ∀ c ∈ scheme.toList, Escape.isPlain c = true := by
  obtain ⟨letter, rest, -, alpha, each, rfl⟩ := h
  have all : ∀ c ∈ letter :: rest, isSchemeChar c = true :=
    List.forall_mem_cons.mpr ⟨isSchemeChar_of_isAlpha alpha, each⟩
  rw [String.toList_ofList]
  refine ⟨⟨letter.toLower, rest.map Char.toLower, rfl,
    (isSchemeChar_toLower (all letter List.mem_cons_self)).2.2.1 alpha, ?_, ?_⟩, ?_⟩
  · exact List.forall_mem_map.mpr fun c hc => (isSchemeChar_toLower (each c hc)).1
  · rw [← List.map_cons, List.map_map]
    refine congrArg String.ofList (List.map_congr_left fun c hc => ?_)
    exact (isSchemeChar_toLower (all c hc)).2.1.symm
  · exact List.forall_mem_map.mpr fun c hc => (isSchemeChar_toLower (all c hc)).2.2.2

/-- What can be seen in front of a text is kept. -/
theorem exists_cleaned_append {front : List Char} (some : front ≠ [])
    (plain : ∀ c ∈ front, Escape.isPlain c = true) (rest : List Char) :
    ∃ kept, cleaned (String.ofList (front ++ rest)) = front ++ kept := by
  have visible (c : Char) (hc : c ∈ front) := seen_of_isPlain (plain c hc)
  have first : (front ++ rest).dropWhile isMargin = front ++ rest := by
    obtain ⟨c, cs, rfl⟩ := List.exists_cons_of_ne_nil some
    exact List.dropWhile_cons_of_neg (by simp [(visible c List.mem_cons_self).1])
  have last : ∃ left, (front ++ rest).reverse.dropWhile isMargin = left ++ front.reverse := by
    have untouched : front.reverse.dropWhile isMargin = front.reverse := by
      obtain ⟨c, cs, reverse⟩ := List.exists_cons_of_ne_nil (mt List.reverse_eq_nil_iff.mp some)
      have hc : c ∈ front := List.mem_reverse.mp (reverse ▸ List.mem_cons_self)
      rw [reverse]
      exact List.dropWhile_cons_of_neg (by simp [(visible c hc).1])
    rw [List.reverse_append, List.dropWhile_append, untouched]
    split
    · exact ⟨[], rfl⟩
    · exact ⟨_, rfl⟩
  obtain ⟨left, last⟩ := last
  refine ⟨left.reverse.filter fun c => !isBreak c, ?_⟩
  rw [cleaned, String.toList_ofList, first, last, List.reverse_append, List.reverse_reverse,
    List.filter_append, List.filter_eq_self.mpr fun c hc => by simp [(visible c hc).2]]

/-- The text of a URL with a scheme that has been read leads to a URL with this scheme, if it leads
anywhere. -/
theorem scheme_of_resolve_text [HostNames] {base : Option Url} {u w : Url} {cs behind : List Char}
    (absolute : IsAbsolute cs u.scheme behind) (h : resolve base u.text = .ok w) :
    w.scheme = u.scheme := by
  have plain : ∀ c ∈ u.scheme.toList ++ [':'], Escape.isPlain c = true := by
    refine List.forall_mem_append.mpr ⟨(absolute.again []).2, ?_⟩
    simp only [List.forall_mem_singleton]
    decide
  obtain ⟨kept, clean⟩ := exists_cleaned_append (by simp) plain
    (u.beforePath ++ u.path.text ++ marked '?' u.query ++ marked '#' u.fragment)
  have text : u.text = String.ofList (u.scheme.toList ++ [':'] ++
      (u.beforePath ++ u.path.text ++ marked '?' u.query ++ marked '#' u.fragment)) := by
    simp [Url.text, chars]
  have again := (absolute.again kept).1
  rw [← List.singleton_append, ← List.append_assoc, ← clean, ← text] at again
  exact scheme_of_isAbsolute h again

/-! ## References without slashes -/

/-- What is kept of a text is part of it. -/
theorem cleaned_subset (s : String) : cleaned s ⊆ s.toList := by
  intro c hc
  have trimmed := List.mem_reverse.mp (List.mem_of_mem_filter hc)
  have front := List.mem_reverse.mp ((List.dropWhile_sublist _).subset trimmed)
  exact (List.dropWhile_sublist _).subset front

/-- A body without slashes has none in front. -/
theorem takeWhile_isSlash_of_notMem {cs body : List Char} (slash : '/' ∉ cs) (backslash : '\\' ∉ cs)
    (within : body ⊆ cs) : body.takeWhile (isSlash true) = [] := by
  cases body with
  | nil => rfl
  | cons c rest =>
      have hc : c ∈ cs := within List.mem_cons_self
      have notSlash : c ≠ '/' := fun same => slash (same ▸ hc)
      have notBackslash : c ≠ '\\' := fun same => backslash (same ▸ hc)
      exact List.takeWhile_cons_of_neg (by simp [isSlash, notSlash, notBackslash])

/-- Whether a reference begins with no scheme, but perhaps with that of a base. -/
def KeepsScheme (base : Url) (s : String) : Prop :=
  ∀ scheme behind, IsAbsolute (cleaned s) scheme behind → scheme = base.scheme

/-- A reference without slashes that begins with no scheme but perhaps that of a base of the web
stays within this base. -/
theorem exists_join_of_single [HostNames] {base : Url} {s : String} (http : base.isHttp = true)
    (tidy : base.path.IsTidy) (slash : '/' ∉ s.toList) (backslash : '\\' ∉ s.toList)
    (keeps : base.KeepsScheme s) : ∃ u, base.join s = .ok u ∧ u.IsWithin base := by
  have notSlash : '/' ∉ cleaned s := fun hc => slash (cleaned_subset s hc)
  have notBackslash : '\\' ∉ cleaned s := fun hc => backslash (cleaned_subset s hc)
  by_cases schemeless : HasScheme (cleaned s)
  · obtain ⟨scheme, behind, absolute⟩ := hasScheme_iff.mp schemeless
    obtain rfl := keeps scheme behind absolute
    obtain ⟨special, notFile⟩ := isSpecial_of_isHttp http
    have within : (Reference.ofChars behind).body ⊆ cleaned s := by
      obtain ⟨letter, rest, text, -⟩ := absolute
      rw [text]
      intro d hd
      have later := (body_isPrefix behind).subset hd
      exact List.mem_append_right _ (List.mem_cons_of_mem _ later)
    have bare := takeWhile_isSlash_of_notMem notSlash notBackslash within
    rw [join, resolve, splitScheme?_eq_some_iff.mpr absolute]
    dsimp only
    rw [resolveScheme, if_neg notFile, if_pos special, if_pos ⟨rfl, by simp [bare]⟩]
    exact exists_resolveRelative tidy (by simp [bare])
  · refine exists_join_of_relative http tidy schemeless ?_
    rintro ⟨a, b, rest, text, isSlash, -⟩
    have bare := takeWhile_isSlash_of_notMem notSlash notBackslash (List.Subset.refl _)
    rw [text, List.takeWhile_cons_of_pos isSlash] at bare
    cases bare

end RegionApi.Url
