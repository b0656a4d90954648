import Mathlib.Data.List.Basic
import RegionApi.Proofs.Text.Percent
import RegionApi.Proofs.Text.Split
import RegionApi.Url.Path

/-!
# Paths without dot segments

A walk along a reference leaves no dot segment behind and joins no two segments, whatever it walks
along (`isTidy_along`). A tidy path begins with a slash, and no segment of its text means to stay or
to go up, however the dots are spelled (`IsTidy.not_isDots`).
-/

namespace RegionApi.Url.Path

/-! ## Spellings of dots -/

/-- Whether a segment stands for one dot or for two, in whatever spelling. -/
def IsDots (s : String) : Prop :=
  Text.Percent.decode s = Text.utf8 "." ∨ Text.Percent.decode s = Text.utf8 ".."

/-- The spellings of a dot. -/
def dotSpellings : List (List Char) := [['.'], ['%', '2', 'e'], ['%', '2', 'E']]

/-- The byte of a dot comes from no other character. -/
theorem eq_dot_of_mem_utf8EncodeChar {c : Char} (h : 46 ∈ String.utf8EncodeChar c) : c = '.' := by
  have ascii : c.toNat = 46 := by
    change c.val.toNat = 46
    unfold String.utf8EncodeChar at h
    dsimp only at h
    split at h
    · rename_i small
      have byte := congrArg UInt8.toNat (List.mem_singleton.mp h)
      rw [UInt8.toNat_ofNat'] at byte
      change 46 = _ at byte
      omega
    · -- A longer form has no byte below 128.
      split at h
      · simp only [List.mem_cons, List.not_mem_nil, or_false, ← UInt8.toNat_inj,
          UInt8.toNat_ofNat'] at h
        change (46 = _ ∨ 46 = _) at h
        omega
      · split at h
        · simp only [List.mem_cons, List.not_mem_nil, or_false, ← UInt8.toNat_inj,
            UInt8.toNat_ofNat'] at h
          change (46 = _ ∨ 46 = _ ∨ 46 = _) at h
          omega
        · simp only [List.mem_cons, List.not_mem_nil, or_false, ← UInt8.toNat_inj,
            UInt8.toNat_ofNat'] at h
          change (46 = _ ∨ 46 = _ ∨ 46 = _ ∨ 46 = _) at h
          omega
  exact Char.toNat_inj.mp ascii

/-- A digit and its value. -/
theorem toNat_of_hexValue? {c : Char} {n : Nat} (h : Text.hexValue? c = some n) :
    n < 10 ∧ c.toNat = 48 + n ∨
      10 ≤ n ∧ n < 16 ∧ (c.toNat = 55 + n ∨ c.toNat = 87 + n) := by
  have least {d : Char} (hd : d ≤ c) : d.toNat ≤ c.toNat := UInt32.le_iff_toNat_le.mp hd
  have most {d : Char} (hd : c ≤ d) : c.toNat ≤ d.toNat := UInt32.le_iff_toNat_le.mp hd
  unfold Text.hexValue? at h
  split at h
  · rename_i digit
    have lower : 48 ≤ c.toNat := least digit.1
    have upper : c.toNat ≤ 57 := most digit.2
    cases h
    omega
  · split at h
    · rename_i capital
      have lower : 65 ≤ c.toNat := least capital.1
      have upper : c.toNat ≤ 70 := most capital.2
      cases h
      omega
    · split at h
      · rename_i small
        have lower : 97 ≤ c.toNat := least small.1
        have upper : c.toNat ≤ 102 := most small.2
        cases h
        omega
      · cases h

/-- The escape of a dot is spelled with either kind of letter. -/
theorem mem_dotSpellings_of_hexValue? {a b : Char} {x y : Nat} (high : Text.hexValue? a = some x)
    (low : Text.hexValue? b = some y) (dot : UInt8.ofNat (16 * x + y) = 46) :
    ['%', a, b] ∈ dotSpellings := by
  have hx := toNat_of_hexValue? high
  have hy := toNat_of_hexValue? low
  have byte := congrArg UInt8.toNat dot
  rw [UInt8.toNat_ofNat'] at byte
  change _ = 46 at byte
  have two : a.toNat = '2'.toNat := by
    change a.toNat = 50
    omega
  have e : b.toNat = 'e'.toNat ∨ b.toNat = 'E'.toNat := by
    change b.toNat = 101 ∨ b.toNat = 69
    omega
  rw [Char.toNat_inj.mp two]
  rcases e with e | e <;>
  · rw [Char.toNat_inj.mp e]
    decide

/-- Text that stands for dots alone is made of spellings of dots. -/
theorem exists_dots_of_decodeChars {cs : List Char} {n : Nat}
    (h : Text.Percent.decodeChars cs = List.replicate n 46) :
    ∃ dots : List (List Char), cs = dots.flatten ∧ dots.length = n ∧
      ∀ dot ∈ dots, dot ∈ dotSpellings := by
  fun_induction Text.Percent.decodeChars cs generalizing n with
  | case1 =>
      cases n with
      | zero => exact ⟨[], rfl, rfl, fun dot hdot => absurd hdot List.not_mem_nil⟩
      | succ n => cases h
  | case2 a b rest x y low high ih =>
      cases n with
      | zero => cases h
      | succ n =>
          rw [List.replicate_succ, List.cons.injEq] at h
          obtain ⟨dots, rfl, length, each⟩ := ih h.2
          refine ⟨['%', a, b] :: dots, rfl, by rw [List.length_cons, length], ?_⟩
          exact List.forall_mem_cons.mpr ⟨mem_dotSpellings_of_hexValue? high low h.1, each⟩
  | case3 a b rest ih =>
      cases n with
      | zero => cases h
      | succ n =>
          rw [List.replicate_succ, List.cons.injEq] at h
          exact absurd h.1 (by decide)
  | case4 c rest _ ih =>
      cases encoded : String.utf8EncodeChar c with
      | nil => exact absurd encoded String.utf8EncodeChar_ne_nil
      | cons b bs =>
          cases n with
          | zero =>
              rw [encoded] at h
              cases h
          | succ n =>
              rw [encoded, List.cons_append, List.replicate_succ, List.cons.injEq] at h
              have dot : c = '.' := eq_dot_of_mem_utf8EncodeChar
                (by rw [encoded, h.1]; exact List.mem_cons_self)
              subst dot
              cases encoded
              obtain ⟨dots, rfl, length, each⟩ := ih h.2
              refine ⟨['.'] :: dots, rfl, by rw [List.length_cons, length], ?_⟩
              exact List.forall_mem_cons.mpr ⟨by decide, each⟩

/-- The one-dot segments and the two-dot ones are all there is of dot segments. -/
theorem not_isDots_of_eq_false {s : String} (dot : isDot s = false) (dotDot : isDotDot s = false) :
    ¬ IsDots s := by
  have one : ∀ d ∈ dotSpellings, isDot (String.ofList [d].flatten) = true := by decide
  have two : ∀ d ∈ dotSpellings, ∀ e ∈ dotSpellings,
      isDotDot (String.ofList [d, e].flatten) = true := by decide
  rintro (h | h)
  · obtain ⟨dots, text, length, each⟩ := exists_dots_of_decodeChars (n := 1) h
    obtain ⟨d, rfl⟩ := List.length_eq_one_iff.mp length
    rw [String.ofList_toList.symm.trans (congrArg String.ofList text),
      one d (each d List.mem_cons_self)] at dot
    cases dot
  · obtain ⟨dots, text, length, each⟩ := exists_dots_of_decodeChars (n := 2) h
    obtain ⟨d, e, rfl⟩ := List.length_eq_two.mp length
    rw [String.ofList_toList.symm.trans (congrArg String.ofList text),
      two d (each d List.mem_cons_self) e (each e (List.mem_cons_of_mem _ List.mem_cons_self))]
      at dotDot
    cases dotDot

/-! ## Walking -/

/-- Whether a segment is a single one, and neither stays nor goes up. -/
structure IsName (s : String) : Prop where
  whole : '/' ∉ s.toList
  dot : isDot s = false
  dotDot : isDotDot s = false

theorem isName_empty : IsName "" := ⟨by decide, by decide, by decide⟩

section Walk

variable {inner names : List String}

theorem forall_isName_up (h : ∀ s ∈ inner, IsName s) : ∀ s ∈ up inner, IsName s := by
  unfold up
  split
  · exact h
  · split
    · exact h
    · exact fun s hs => h s (List.mem_cons_of_mem _ hs)

/-- A walk ends somewhere, if only at the root. -/
theorem walk_ne_nil : walk inner names ≠ [] := by
  fun_induction walk inner names <;> simp_all

theorem forall_isName_reverse (h : ∀ s ∈ inner, IsName s) : ∀ s ∈ inner.reverse, IsName s :=
  fun s hs => h s (List.mem_reverse.mp hs)

/-- Among names a walk comes to names alone, whatever it goes along. -/
theorem forall_isName_walk (h : ∀ s ∈ inner, IsName s) (whole : ∀ s ∈ names, '/' ∉ s.toList) :
    ∀ s ∈ walk inner names, IsName s := by
  fun_induction walk inner names with
  | case1 inner =>
      exact forall_isName_reverse (List.forall_mem_cons.mpr ⟨isName_empty, h⟩)
  | case2 inner s up =>
      exact forall_isName_reverse (List.forall_mem_cons.mpr ⟨isName_empty, forall_isName_up h⟩)
  | case3 inner s notUp stays =>
      exact forall_isName_reverse (List.forall_mem_cons.mpr ⟨isName_empty, h⟩)
  | case4 inner s notUp moves =>
      have name : IsName s :=
        ⟨whole s List.mem_cons_self, Bool.eq_false_iff.mpr moves, Bool.eq_false_iff.mpr notUp⟩
      exact forall_isName_reverse (List.forall_mem_cons.mpr ⟨name, h⟩)
  | case5 inner s rest _ up ih =>
      exact ih (forall_isName_up h) (List.forall_mem_cons.mp whole).2
  | case6 inner s rest _ notUp stays ih => exact ih h (List.forall_mem_cons.mp whole).2
  | case7 inner s rest _ notUp moves ih =>
      have name : IsName s :=
        ⟨whole s List.mem_cons_self, Bool.eq_false_iff.mpr moves, Bool.eq_false_iff.mpr notUp⟩
      exact ih (List.forall_mem_cons.mpr ⟨name, h⟩) (List.forall_mem_cons.mp whole).2

end Walk

/-! ## Tidy paths -/

/-- Whether a path begins at the root and its segments are names. -/
def IsTidy : Path → Prop
  | flat _ => False
  | segments names => names ≠ [] ∧ ∀ s ∈ names, IsName s

/-- A segment is encoded after it has been cut at the slashes, and an escape brings no new one. -/
theorem slash_notMem_of_mem_split {special : Bool} {cs : List Char} {s : String}
    (h : s ∈ split special cs) : '/' ∉ s.toList := by
  obtain ⟨part, hpart, rfl⟩ := List.mem_map.mp h
  rw [Escape.text, String.toList_ofList]
  refine Text.Percent.notMem_encodeChars (by decide) (by decide) fun slash => ?_
  have separates := Text.eq_false_of_mem_splitOnP hpart '/' slash
  simp at separates

/-- A path along a reference is tidy if the directory it starts from is. -/
theorem isTidy_along {directory : List String} (h : ∀ s ∈ directory, IsName s) (special : Bool)
    (cs : List Char) : (along special directory cs).IsTidy :=
  ⟨walk_ne_nil, forall_isName_walk (forall_isName_reverse h) fun _ => slash_notMem_of_mem_split⟩

section Tidy

variable {p : Path}

theorem IsTidy.forall_isName_directory (h : p.IsTidy) : ∀ s ∈ p.directory, IsName s := by
  cases p with
  | flat s => exact h.elim
  | segments names => exact fun s hs => h.2 s (List.dropLast_subset names hs)

theorem IsTidy.isFlat (h : p.IsTidy) : p.isFlat = false := by
  cases p with
  | flat s => exact h.elim
  | segments names => rfl

theorem IsTidy.head?_text (h : p.IsTidy) : p.text.head? = some '/' := by
  cases p with
  | flat s => exact h.elim
  | segments names =>
      obtain ⟨s, rest, rfl⟩ := List.exists_cons_of_ne_nil h.1
      rfl

/-- The text of a path is its segments, each behind a slash. -/
theorem text_segments (names : List String) :
    (segments names).text = ['/'].intercalate ([] :: names.map String.toList) := by
  induction names with
  | nil => rfl
  | cons s names ih =>
      have first : ['/'].intercalate (s.toList :: names.map String.toList) =
          s.toList ++ ['/'].intercalate ([] :: names.map String.toList) := by
        cases names with
        | nil => simp
        | cons t names => simp [List.intercalate_cons_cons]
      change '/' :: s.toList ++ (segments names).text = _
      rw [List.map_cons, List.intercalate_cons_cons, first, ih]
      rfl

/-- No segment of the text of a tidy path is a dot segment, in whatever spelling. -/
theorem IsTidy.not_isDots (h : p.IsTidy) :
    ∀ part ∈ List.splitOn '/' p.text, ¬ IsDots (String.ofList part) := by
  cases p with
  | flat s => exact h.elim
  | segments names =>
      have parts : List.splitOn '/' (segments names).text = [] :: names.map String.toList := by
        rw [text_segments]
        refine List.splitOn_intercalate '/' ?_ (List.cons_ne_nil _ _)
        refine List.forall_mem_cons.mpr ⟨List.not_mem_nil, fun part hpart => ?_⟩
        obtain ⟨s, hs, rfl⟩ := List.mem_map.mp hpart
        exact (h.2 s hs).whole
      rw [parts]
      refine List.forall_mem_cons.mpr ⟨not_isDots_of_eq_false (by decide) (by decide), ?_⟩
      intro part hpart
      obtain ⟨s, hs, rfl⟩ := List.mem_map.mp hpart
      rw [String.ofList_toList]
      exact not_isDots_of_eq_false (h.2 s hs).dot (h.2 s hs).dotDot

end Tidy

end RegionApi.Url.Path
