import Mathlib.Data.List.TakeWhile
import RegionApi.Proofs.Url.Path
import RegionApi.Proofs.Url.Resolve

/-!
# Relative references

A reference begins with a scheme (`HasScheme`), or with two slashes and then an authority, or it is
relative: it inherits scheme and authority from its base. Against a base of the web every relative
reference can be resolved, and leads to a tidy path as the base has one (`exists_join_of_relative`).
-/

namespace RegionApi.Url

/-- Whether some characters begin with a scheme: a letter, then letters, digits and `+-.`, and then
a colon. -/
def HasScheme (cs : List Char) : Prop :=
  ∃ letter rest behind, cs = letter :: rest ++ ':' :: behind ∧ letter.isAlpha = true ∧
    ∀ c ∈ rest, isSchemeChar c = true

/-- Whether some characters begin with a scheme, told in lower case, and hold others behind its
colon. -/
def IsAbsolute (cs : List Char) (scheme : String) (behind : List Char) : Prop :=
  ∃ letter rest, cs = letter :: rest ++ ':' :: behind ∧ letter.isAlpha = true ∧
    (∀ c ∈ rest, isSchemeChar c = true) ∧
    scheme = String.ofList ((letter :: rest).map Char.toLower)

theorem hasScheme_iff {cs : List Char} :
    HasScheme cs ↔ ∃ scheme behind, IsAbsolute cs scheme behind := by
  constructor
  · rintro ⟨letter, rest, behind, text, alpha, each⟩
    exact ⟨_, behind, letter, rest, text, alpha, each, rfl⟩
  · rintro ⟨scheme, behind, letter, rest, text, alpha, each, -⟩
    exact ⟨letter, rest, behind, text, alpha, each⟩

/-- Whether some characters begin with two slashes of either kind. -/
def HasTwoSlashes (cs : List Char) : Prop :=
  ∃ a b rest, cs = a :: b :: rest ∧ isSlash true a = true ∧ isSlash true b = true

/-- A scheme is found where a reference begins with one, and is told in lower case. -/
theorem splitScheme?_eq_some_iff {cs behind : List Char} {scheme : String} :
    splitScheme? cs = some (scheme, behind) ↔ IsAbsolute cs scheme behind := by
  constructor
  · intro found
    unfold splitScheme? at found
    split at found
    · cases found
    · rename_i letter rest
      split at found
      · rename_i alpha
        split at found
        · rename_i behind left
          cases found
          have first : isSchemeChar letter = true := by
            simp [isSchemeChar, Char.isAlphanum, alpha]
          refine ⟨letter, rest.takeWhile isSchemeChar, ?_, alpha, fun c hc => ?_, ?_⟩
          · rw [← left, List.cons_append, List.dropWhile_cons_of_pos first,
              List.takeWhile_append_dropWhile]
          · exact List.mem_takeWhile_imp hc
          · rw [List.takeWhile_cons_of_pos first]
        · cases found
      · cases found
  · rintro ⟨letter, rest, rfl, alpha, scheme, rfl⟩
    have all : ∀ c ∈ letter :: rest, isSchemeChar c = true := by
      refine List.forall_mem_cons.mpr ⟨?_, scheme⟩
      simp [isSchemeChar, Char.isAlphanum, alpha]
    have colon : isSchemeChar ':' = false := by decide
    have left : (letter :: rest ++ ':' :: behind).dropWhile isSchemeChar = ':' :: behind := by
      rw [List.dropWhile_append_of_pos all, List.dropWhile_cons_of_neg (by rw [colon]; decide)]
    have taken : (letter :: rest ++ ':' :: behind).takeWhile isSchemeChar = letter :: rest := by
      rw [List.takeWhile_append_of_pos all, List.takeWhile_cons_of_neg (by rw [colon]; decide),
        List.append_nil]
    rw [List.cons_append] at left taken ⊢
    simp only [splitScheme?, if_pos alpha, left, taken]

/-- No scheme is found exactly where a reference begins with none. -/
theorem splitScheme?_eq_none_iff {cs : List Char} : splitScheme? cs = none ↔ ¬ HasScheme cs := by
  rw [hasScheme_iff]
  cases found : splitScheme? cs with
  | none =>
      refine iff_of_true rfl ?_
      rintro ⟨scheme, behind, absolute⟩
      rw [splitScheme?_eq_some_iff.mpr absolute] at found
      cases found
  | some pieces =>
      refine iff_of_false (Option.some_ne_none _) fun relative => relative ?_
      exact ⟨pieces.1, pieces.2, splitScheme?_eq_some_iff.mp found⟩

theorem cut_isPrefix (mark : Char) (cs : List Char) : (Reference.cut mark cs).1 <+: cs := by
  unfold Reference.cut
  split
  · exact List.prefix_rfl
  · exact List.takeWhile_prefix _

/-- The body of a reference begins it. -/
theorem body_isPrefix (cs : List Char) : (Reference.ofChars cs).body <+: cs :=
  (cut_isPrefix '?' _).trans (cut_isPrefix '#' cs)

/-- At most one slash begins the body of a reference that two do not begin. -/
theorem takeWhile_isSlash_body {cs : List Char} (h : ¬ HasTwoSlashes cs) (a b : Char)
    (slashes : List Char) :
    (Reference.ofChars cs).body.takeWhile (isSlash true) ≠ a :: b :: slashes := by
  intro begins
  have isPrefix : (a :: b :: slashes) <+: cs :=
    begins ▸ (List.takeWhile_prefix _).trans (body_isPrefix cs)
  obtain ⟨rest, text⟩ := isPrefix
  have slash : ∀ c ∈ a :: b :: slashes, isSlash true c = true := by
    rw [← begins]
    exact fun c hc => List.mem_takeWhile_imp hc
  exact h ⟨a, b, slashes ++ rest, text.symm, slash a (by simp), slash b (by simp)⟩

/-! ## Resolving -/

variable [HostNames]

/-- Whether a URL has scheme and authority of another and a tidy path. -/
structure IsWithin (u base : Url) : Prop where
  scheme : u.scheme = base.scheme
  authority : u.authority = base.authority
  path : u.path.IsTidy

section Within

variable {base : Url}

/-- A body with at most one slash in front is a path. -/
theorem exists_resolveBody {r : Reference} {cs : List Char} (tidy : base.path.IsTidy)
    (single : ∀ a b slashes, cs.takeWhile (isSlash true) ≠ a :: b :: slashes) :
    ∃ u, resolveBody base r cs = .ok u ∧ u.IsWithin base := by
  unfold resolveBody
  dsimp only
  split
  · exact ⟨_, rfl, rfl, rfl, Path.isTidy_along tidy.forall_isName_directory _ _⟩
  · exact ⟨_, rfl, rfl, rfl, Path.isTidy_along (by simp) _ _⟩
  · rename_i a b slashes begins
    exact absurd begins (single a b slashes)

/-- So a relative reference whose body has at most one slash in front stays within its base. -/
theorem exists_resolveRelative {r : Reference} (tidy : base.path.IsTidy)
    (single : ∀ a b slashes, r.body.takeWhile (isSlash true) ≠ a :: b :: slashes) :
    ∃ u, resolveRelative base r = .ok u ∧ u.IsWithin base := by
  unfold resolveRelative
  split
  · exact ⟨_, rfl, rfl, rfl, tidy⟩
  · rename_i c cs body
    exact exists_resolveBody tidy (body ▸ single)

/-- Every relative reference leads to a place within its base. -/
theorem exists_join_of_relative {s : String} (http : base.isHttp = true)
    (tidy : base.path.IsTidy) (schemeless : ¬ HasScheme (cleaned s))
    (single : ¬ HasTwoSlashes (cleaned s)) : ∃ u, base.join s = .ok u ∧ u.IsWithin base := by
  have notFile := (isSpecial_of_isHttp http).2
  unfold join resolve
  rw [splitScheme?_eq_none_iff.mpr schemeless]
  dsimp only
  unfold resolveWithoutScheme
  by_cases fragment : (cleaned s).head? = some '#'
  · simp only [if_pos fragment]
    exact ⟨_, rfl, rfl, rfl, tidy⟩
  · simp only [if_neg fragment, if_neg (Bool.eq_false_iff.mp tidy.isFlat), if_neg notFile]
    exact exists_resolveRelative tidy (takeWhile_isSlash_body single)

end Within

/-- A URL of the web that has been read has a tidy path. -/
theorem isTidy_of_parse {s : String} {u : Url} (h : parse s = .ok u)
    (special : isSpecial u.scheme = true) (notFile : u.scheme ≠ "file") : u.path.IsTidy := by
  cases resolved_of_resolve h with
  | inherited b isBase => cases isBase
  | addressed a last cs rest read authority path =>
      rw [path, special]
      cases rest with
      | nil => exact ⟨List.cons_ne_nil _ _, by simpa using Path.isName_empty⟩
      | cons c rest => exact Path.isTidy_along (by simp) _ _
  | file host names query fragment isFile =>
      subst isFile
      exact absurd rfl notFile
  | plain plain _ =>
      rw [special] at plain
      cases plain

end RegionApi.Url
