import RegionApi.Proofs.Resource.Navigation
import RegionApi.Proofs.Url.Relative

/-!
# Going down by plain names

A plain name is a list of segments with single slashes between them, each of letters, digits and
`-_.~`, and none a dot segment. From a directory it leads to the directory behind its segments
(`IsNormal.join_plain`). So below a directory there is a resource for every plain name, and two
names one after the other lead where both together lead at once (`child_extends_path`).
-/

namespace RegionApi

namespace Url

/-! ## Plain names -/

/-- A letter, a digit or one of `-_.~`. -/
def isUnreserved (c : Char) : Bool := c.isAlphanum || c = '-' || c = '_' || c = '.' || c = '~'

/-- Whether a segment is one of a plain name. -/
structure IsPlainSegment (s : String) : Prop where
  some : s ≠ ""
  unreserved : ∀ c ∈ s.toList, isUnreserved c = true
  dot : s ≠ "."
  dotDot : s ≠ ".."

/-- Whether a name is plain and made of these segments. -/
structure IsPlainName (name : String) (segments : List String) : Prop where
  some : segments ≠ []
  each : ∀ s ∈ segments, IsPlainSegment s
  text : name.toList = ['/'].intercalate (segments.map String.toList)

instance (s : String) : Decidable (IsPlainSegment s) :=
  decidable_of_iff (s ≠ "" ∧ s.toList.all isUnreserved = true ∧ s ≠ "." ∧ s ≠ "..")
    ⟨fun ⟨filled, unreserved, dot, dotDot⟩ =>
        ⟨filled, List.all_eq_true.mp unreserved, dot, dotDot⟩,
      fun h => ⟨h.some, List.all_eq_true.mpr h.unreserved, h.dot, h.dotDot⟩⟩

instance (name : String) (segments : List String) : Decidable (IsPlainName name segments) :=
  decidable_of_iff (segments ≠ [] ∧ (∀ s ∈ segments, IsPlainSegment s) ∧
      name.toList = ['/'].intercalate (segments.map String.toList))
    ⟨fun ⟨filled, each, text⟩ => ⟨filled, each, text⟩, fun h => ⟨h.some, h.each, h.text⟩⟩

/-- What is unreserved is kept in a path, and separates nothing in a reference. -/
theorem path_of_isUnreserved {c : Char} (h : isUnreserved c = true) :
    Escape.path c = true ∧ c ∉ ['/', '\\', '?', '#', ':', '%'] := by
  have small : c.toNat < 127 := by
    simp only [isUnreserved, Bool.or_eq_true, decide_eq_true_eq] at h
    rcases h with (((h | rfl) | rfl) | rfl) | rfl
    · exact Nat.lt_of_le_of_lt (Text.Percent.toNat_bounds_of_isAlphanum h).2 (by decide)
    all_goals decide
  revert h
  exact Text.of_toNat_lt small (by decide)

namespace IsPlainSegment

variable {s : String}

theorem notMem (h : IsPlainSegment s) {c : Char} (separates : c ∈ ['/', '\\', '?', '#', ':', '%']) :
    c ∉ s.toList := fun hc => (path_of_isUnreserved (h.unreserved c hc)).2 separates

/-- All spellings of dots but the plain ones have a percent sign. -/
theorem isName (h : IsPlainSegment s) : Path.IsName s := by
  have plain (t : String) (escaped : '%' ∈ t.toList) : s ≠ t := by
    rintro rfl
    exact h.notMem (by decide) escaped
  refine ⟨h.notMem (by decide), Bool.eq_false_iff.mpr fun isDot => ?_,
    Bool.eq_false_iff.mpr fun isDotDot => ?_⟩
  · obtain rfl | escaped : s = "." ∨ s ∈ ["%2e", "%2E"] :=
      List.mem_cons.mp (List.contains_iff_mem.mp isDot)
    · exact h.dot rfl
    · have each : ∀ t ∈ ["%2e", "%2E"], '%' ∈ t.toList := by decide
      exact plain s (each s escaped) rfl
  · obtain rfl | escaped := List.mem_cons.mp (List.contains_iff_mem.mp isDotDot)
    · exact h.dotDot rfl
    · have each : ∀ t ∈ [".%2e", ".%2E", "%2e.", "%2E.", "%2e%2e", "%2e%2E", "%2E%2e", "%2E%2E"],
          '%' ∈ t.toList := by decide
      exact plain s (each s escaped) rfl

theorem isWritten (h : IsPlainSegment s) : Path.IsWritten s :=
  ⟨fun c hc => (path_of_isUnreserved (h.unreserved c hc)).1, h.notMem (by decide)⟩

end IsPlainSegment

namespace IsPlainName

variable {name slash : String} {segments : List String}

/-- Two plain names with a slash between them are one. -/
theorem append {a b : String} {as bs : List String} (ha : IsPlainName a as)
    (hb : IsPlainName b bs) : IsPlainName (a ++ "/" ++ b) (as ++ bs) where
  some := List.append_ne_nil_of_left_ne_nil ha.some bs
  each := List.forall_mem_append.mpr ⟨ha.each, hb.each⟩
  text := by
    rw [List.map_append, Text.intercalate_append '/' (by simpa using ha.some)
      (by simpa using hb.some), ← ha.text, ← hb.text]
    simp

/-- A slash at the end of a name is one before an empty segment. -/
theorem exists_ending (plain : IsPlainName name segments) (ends : slash = "" ∨ slash = "/") :
    ∃ ending, (ending = [] ∨ ending = [""]) ∧
      (name ++ slash).toList = ['/'].intercalate ((segments ++ ending).map String.toList) := by
  rcases ends with rfl | rfl
  · refine ⟨[], .inl rfl, ?_⟩
    rw [String.append_empty, List.append_nil, plain.text]
  · refine ⟨[""], .inr rfl, ?_⟩
    rw [List.map_append, Text.intercalate_append '/' (by simpa using plain.some) (by simp),
      ← plain.text]
    simp

theorem unreserved_or_slash (plain : IsPlainName name segments) (ends : slash = "" ∨ slash = "/") :
    ∀ d ∈ (name ++ slash).toList, isUnreserved d = true ∨ d = '/' := by
  intro d hd
  rw [String.toList_append, List.mem_append, plain.text] at hd
  rcases hd with hd | hd
  · rcases Text.mem_intercalate hd with sep | ⟨part, hpart, hd⟩
    · exact .inr (List.mem_singleton.mp sep)
    · obtain ⟨s, hs, rfl⟩ := List.mem_map.mp hpart
      exact .inl ((plain.each s hs).unreserved d hd)
  · rcases ends with rfl | rfl
    · simp at hd
    · exact .inr (by simpa using hd)

theorem exists_cons (plain : IsPlainName name segments) :
    ∃ c cs, name.toList = c :: cs ∧ isUnreserved c = true := by
  obtain ⟨s, rest, rfl⟩ := List.exists_cons_of_ne_nil plain.some
  have first := plain.each s List.mem_cons_self
  obtain ⟨c, cs, chars⟩ := List.exists_cons_of_ne_nil (mt String.toList_eq_nil_iff.mp first.some)
  have unreserved := first.unreserved c (chars ▸ List.mem_cons_self)
  rw [plain.text, List.map_cons, chars]
  cases rest with
  | nil => exact ⟨c, _, rfl, unreserved⟩
  | cons t rest => exact ⟨c, _, rfl, unreserved⟩

end IsPlainName

/-! ## What plain names lead to -/

/-- The directory behind some segments below a URL. -/
def below (u : Url) (segments : List String) : Url :=
  { u with
    path := .segments (u.path.directory ++ segments ++ [""]), query := none, fragment := none }

@[simp] theorem directory_below (u : Url) (segments : List String) :
    (u.below segments).path.directory = u.path.directory ++ segments :=
  List.dropLast_concat

theorem below_below (u : Url) (as bs : List String) :
    (u.below as).below bs = u.below (as ++ bs) := by
  rw [below, directory_below, List.append_assoc u.path.directory]
  rfl

section Below

variable [HostNames] {u : Url} {name slash : String} {segments : List String}

theorem IsNormal.below (normal : u.IsNormal) (plain : ∀ s ∈ segments, IsPlainSegment s) :
    (u.below segments).IsNormal := by
  have path : (Path.segments (u.path.directory ++ segments ++ [""])).IsNormal := by
    refine ⟨⟨by simp, ?_⟩, ?_⟩
    · refine List.forall_mem_append.mpr ⟨List.forall_mem_append.mpr ⟨?_, ?_⟩, ?_⟩
      · exact normal.path.tidy.forall_isName_directory
      · exact fun s hs => (plain s hs).isName
      · simpa using Path.isName_empty
    · rintro _ ⟨⟩
      refine List.forall_mem_append.mpr ⟨List.forall_mem_append.mpr ⟨?_, ?_⟩, ?_⟩
      · exact normal.path.isWritten_of_mem_directory
      · exact fun s hs => (plain s hs).isWritten
      · simpa using Path.isWritten_empty
  exact ⟨normal.special, normal.notFile, normal.authority, path, by rintro q ⟨⟩, by rintro f ⟨⟩⟩

omit [HostNames] in
/-- Behind a directory stand the segments with a slash behind each. -/
theorem text_below (tidy : u.path.IsTidy) (directory : u.path.text.getLast? = some '/')
    (plain : IsPlainName name segments) :
    (u.below segments).path.text = u.path.text ++ name.toList ++ ['/'] := by
  cases path : u.path with
  | flat s =>
      rw [path] at tidy
      exact tidy.elim
  | segments names =>
      rw [path] at tidy directory
      obtain ⟨front, last, rfl⟩ := (List.eq_nil_or_concat' names).resolve_left tidy.1
      have none : last = "" := by
        rcases List.eq_nil_or_concat' last.toList with empty | ⟨cs, c, chars⟩
        · exact String.toList_eq_nil_iff.mp empty
        · have slash : c = '/' := by
            have last : (Path.segments (front ++ [last])).text.getLast? = Option.some c := by
              simp only [Path.text, List.flatMap_append, List.flatMap_singleton, chars]
              rw [← List.cons_append, ← List.append_assoc, List.getLast?_concat]
            exact Option.some.inj (last.symm.trans directory)
          have whole := (tidy.2 last (by simp)).whole
          rw [chars, slash] at whole
          simp at whole
      subst none
      have behind : (Path.segments segments).text = '/' :: name.toList := by
        obtain ⟨s, rest, rfl⟩ := List.exists_cons_of_ne_nil plain.some
        rw [Path.text_segments, plain.text, List.map_cons, List.intercalate_cons_cons]
        rfl
      rw [below, path]
      simp only [Path.text, Path.directory, List.dropLast_concat, List.flatMap_append] at behind ⊢
      rw [behind]
      simp

/-- Unreserved characters and slashes are a path, if no slash comes first. -/
theorem IsNormal.join_of_unreserved (normal : u.IsNormal) {s : String} {c : Char} {cs : List Char}
    (chars : s.toList = c :: cs) (first : isUnreserved c = true)
    (each : ∀ d ∈ c :: cs, isUnreserved d = true ∨ d = '/') :
    u.join s = .ok
      { u with path := .along true u.path.directory (c :: cs), query := none, fragment := none } := by
  have notMem {d : Char} (separates : d ∈ ['?', '#', ':']) : d ∉ c :: cs := by
    intro hd
    rcases each d hd with unreserved | rfl
    · have all : ∀ d ∈ ['?', '#', ':'], d ∈ ['/', '\\', '?', '#', ':', '%'] := by simp
      exact (path_of_isUnreserved unreserved).2 (all d separates)
    · exact absurd separates (by decide)
  have clean : cleaned s = c :: cs := by
    rw [cleaned_of_isPlain, chars]
    rw [chars]
    intro d hd
    rcases each d hd with unreserved | rfl
    · exact Escape.isPlain_of_path (path_of_isUnreserved unreserved).1
    · decide
  have schemeless : splitScheme? (c :: cs) = none := by
    refine splitScheme?_eq_none_iff.mpr ?_
    rintro ⟨letter, rest, behind, text, -⟩
    exact notMem (d := ':') (by decide) (text ▸ by simp)
  have whole : Reference.ofChars (c :: cs) = ⟨c :: cs, none, none⟩ := by
    have pieces : Reference.ofChars (c :: cs ++ marked '?' none ++ marked '#' none) =
        ⟨c :: cs, none, none⟩ := by
      refine ofChars_append (notMem (by decide)) ?_
      rw [marked, List.append_nil]
      exact notMem (by decide)
    rwa [marked, marked, List.append_nil, List.append_nil] at pieces
  have relative : isSlash true c = false := by
    have separate := (path_of_isUnreserved first).2
    simp only [List.mem_cons, not_or] at separate
    simp [isSlash, separate.1, separate.2.1]
  have hash : (c :: cs).head? ≠ some '#' := by
    intro same
    exact notMem (d := '#') (by decide) (Option.some.inj same ▸ List.mem_cons_self)
  rw [Url.join, resolve, clean, schemeless]
  simp only [resolveWithoutScheme, hash, normal.path.tidy.isFlat, normal.notFile, whole, if_false,
    Bool.false_eq_true, resolveRelative, resolveBody, List.takeWhile_cons, relative,
    normal.special]
  rfl

omit [HostNames] in
/-- Along the segments of a plain name a path leads to the directory behind them, once it is
closed. -/
theorem closed_along (plain : IsPlainName name segments) (ends : slash = "" ∨ slash = "/")
    (directory : List String) :
    (Path.along true directory (name ++ slash).toList).closed =
      .segments (directory ++ segments ++ [""]) := by
  obtain ⟨ending, empty, text⟩ := plain.exists_ending ends
  have some : segments ++ ending ≠ [] := List.append_ne_nil_of_left_ne_nil plain.some ending
  have parts : ∀ s ∈ segments ++ ending, Path.IsName s ∧ Path.IsWritten s := by
    refine List.forall_mem_append.mpr
      ⟨fun s hs => ⟨(plain.each s hs).isName, (plain.each s hs).isWritten⟩, ?_⟩
    rcases empty with rfl | rfl
    · simp
    · simpa using ⟨Path.isName_empty, Path.isWritten_empty⟩
  rw [Path.along, text, Path.split_intercalate some (fun s hs => (parts s hs).1)
    (fun s hs => (parts s hs).2), Path.walk_eq_append some (fun s hs => (parts s hs).1),
    List.reverse_reverse]
  rcases empty with rfl | rfl
  · obtain ⟨front, last, rfl⟩ := (List.eq_nil_or_concat' segments).resolve_left plain.some
    have full : last ≠ "" := (plain.each last (by simp)).some
    simp [Path.closed, full]
  · simp [Path.closed]

/-- From a URL of the web a plain name leads to the directory behind its segments, once the path is
closed; a slash at the end of the name makes no difference. -/
theorem IsNormal.join_plain (normal : u.IsNormal) (plain : IsPlainName name segments)
    (ends : slash = "" ∨ slash = "/") :
    ∃ v, u.join (name ++ slash) = .ok v ∧ v.asDirectory = u.below segments := by
  obtain ⟨c, cs, chars, first⟩ := plain.exists_cons
  have text : (name ++ slash).toList = c :: (cs ++ slash.toList) := by
    rw [String.toList_append, chars, List.cons_append]
  have each := plain.unreserved_or_slash ends
  rw [text] at each
  refine ⟨_, normal.join_of_unreserved text first each, ?_⟩
  rw [← text, Url.asDirectory, closed_along plain ends]
  rfl

end Below

end Url

namespace Resource

section Child

variable [HostNames] {r : Resource} {u : Url} {name slash : String} {segments : List String}

/-- The URL of a resource is in its normal spelling, if it is one of the web. -/
theorem isNormal_of_url (url : r.url = .ok u) (http : u.isHttp = true) : u.IsNormal := by
  obtain ⟨address, read⟩ := r.client.isRead
  obtain ⟨special, notFile⟩ := Url.isSpecial_of_isHttp http
  apply (Url.resolved_of_resolve (Client.Invocation.locate_eq_ok_iff.mp url)).isNormal special
    notFile
  rintro b ⟨⟩ scheme
  exact Url.isNormal_of_parse read (scheme ▸ special) (scheme ▸ notFile)

/-- The resource of a directory below another. -/
theorem hasUrl_below (r : Resource) (normal : u.IsNormal)
    (plain : Url.IsPlainName name segments) :
    HasUrl r.client (ofAddress r.client (u.below segments).text) (u.below segments) :=
  ⟨rfl, normal.below plain.each, rfl⟩

/-- Every plain name has a resource. -/
theorem child_plain (url : r.url = .ok u) (normal : u.IsNormal)
    (plain : Url.IsPlainName name segments) (ends : slash = "" ∨ slash = "/") :
    r.child (name ++ slash) = .ok (ofAddress r.client (u.below segments).text) := by
  obtain ⟨v, joined, closed⟩ := normal.join_plain plain ends
  rw [child_eq_ok_iff_of_leadsTo ⟨u, url, joined⟩, closed]

end Child

/-- Whether a URL is a directory with a plain name below another: the name and one slash come behind
the path, and nothing comes behind them. -/
structure Extends (w u : Url) (name : String) : Prop where
  scheme : w.scheme = u.scheme
  /-- User information, host and port. -/
  authority : w.authority = u.authority
  path : w.path.text = u.path.text ++ name.toList ++ ['/']
  query : w.query = none
  fragment : w.fragment = none

/-- From a resource whose URL is one of the web and has a path that ends in a slash, every plain
name leads to a resource, whether a slash ends the name or not, and this resource has a URL, which
its address tells and which extends that of the first one by the name. Two plain names one after
the other lead to the same resource, with the same address and the same fields, as both of them
with a slash between. -/
theorem child_extends_path [HostNames] (r : Resource) (u : Url) (url : r.url = .ok u)
    (http : u.isHttp = true) (directory : u.path.text.getLast? = some '/') :
    (∀ name segments slash, Url.IsPlainName name segments → (slash = "" ∨ slash = "/") →
      ∃ new w, r.child (name ++ slash) = .ok new ∧ new.url = .ok w ∧ w.text = new.address ∧
        Extends w u name) ∧
    ∀ a as b bs slash, Url.IsPlainName a as → Url.IsPlainName b bs →
      (slash = "" ∨ slash = "/") →
      ∃ mid new, r.child a = .ok mid ∧ mid.child (b ++ slash) = .ok new ∧
        r.child (a ++ "/" ++ b ++ slash) = .ok new := by
  have normal := isNormal_of_url url http
  refine ⟨fun name segments slash plain ends => ?_, fun a as b bs slash plainA plainB ends => ?_⟩
  · refine ⟨_, u.below segments, child_plain url normal plain ends,
      (hasUrl_below r normal plain).url_eq, rfl, rfl, rfl, ?_, rfl, rfl⟩
    exact Url.text_below normal.path.tidy directory plain
  · have first : r.child (a ++ "") = .ok (ofAddress r.client (u.below as).text) :=
      child_plain url normal plainA (.inl rfl)
    have second := child_plain (hasUrl_below r normal plainA).url_eq
      (normal.below plainA.each) plainB ends
    rw [Url.below_below] at second
    rw [String.append_empty] at first
    exact ⟨_, _, first, second, child_plain url normal (plainA.append plainB) ends⟩

/-- Names with dots that are no dot segments, below a resource whose address has a query and a
fragment. -/
theorem child_extends_path_dotted :
    ∃ r u, r = ofAddress Client.guarded "../api/2.0/?q=1#f" ∧ r.url = .ok u ∧
      u.text = "http://u:p@localhost/api/2.0/?q=1#f" ∧
      (∃ new w, r.child "a-b_c.d~1/.../" = .ok new ∧
        new.address = "http://u:p@localhost/api/2.0/a-b_c.d~1/.../" ∧ new.url = .ok w ∧
        w.text = new.address ∧ Extends w u "a-b_c.d~1/...") ∧
      ∃ mid new, r.child "a-b_c.d~1/..." = .ok mid ∧ mid.child ".x/" = .ok new ∧
        r.child "a-b_c.d~1/.../.x/" = .ok new := by
  have url : (ofAddress Client.guarded "../api/2.0/?q=1#f").url = .ok ⟨"http",
      Client.guarded.base.authority, .segments ["api", "2.0", ""], some "q=1", some "f"⟩ := by
    decide +kernel
  obtain ⟨single, double⟩ := child_extends_path _ _ url (by decide) (by decide)
  obtain ⟨new, w, made, url', text, isExtended⟩ :=
    single "a-b_c.d~1/..." ["a-b_c.d~1", "..."] "/" (by decide) (.inr rfl)
  have address : ((ofAddress Client.guarded "../api/2.0/?q=1#f").child "a-b_c.d~1/.../").map
      Resource.address = .ok "http://u:p@localhost/api/2.0/a-b_c.d~1/.../" := by decide +kernel
  rw [show "a-b_c.d~1/.../" = "a-b_c.d~1/..." ++ "/" by decide, made] at address
  obtain ⟨mid, last, first, second, both⟩ := double "a-b_c.d~1/..." ["a-b_c.d~1", "..."] ".x"
    [".x"] "/" (by decide) (by decide) (.inr rfl)
  exact ⟨_, _, rfl, url, by decide +kernel, ⟨new, w, made, Except.ok.inj address, url', text,
    isExtended⟩, mid, last, first, second, both⟩

end Resource

end RegionApi
