import RegionApi.Proofs.Except
import RegionApi.Proofs.Json.Scan
import RegionApi.Proofs.Text.Digits
import RegionApi.Proofs.Text.Utf8

/-!
# Strings are read as the grammar has them

A string is read in two steps, first as the bytes it spells and then as the text these are the form
of. The grammar spells characters. Both come to the same (`read_eq_ok_iff`), as a character is either
escaped, or stands for itself with all its bytes: no escape stands for a byte that only follows
others.
-/

namespace RegionApi.Json.Literal

open Text (ascii)

/-! ## Escapes -/

/-- What a reader of escapes is told of a listed letter. -/
theorem shortEscape?_of_listed : ∀ p ∈ shortEscapes,
    shortEscape? (ascii p.1) = some (ascii p.2) ∧ p.2.toNat < 0x80 := by decide

theorem exists_of_shortEscape?_eq_some {b x : UInt8} (h : shortEscape? b = some x) :
    ∃ p ∈ shortEscapes, b = ascii p.1 ∧ x = ascii p.2 := by
  unfold shortEscape? at h
  repeat' split at h
  all_goals cases h
  all_goals
    subst b
    decide

/-! ## Units -/

theorem unit_append {ds : Bytes} {n : Nat} (h : IsUnit ds n) (rest : Bytes) :
    unit (ds ++ rest) = .ok (n, rest) := by
  obtain ⟨four, spelled⟩ := h
  match ds, four with
  | [a, b, c, d], _ =>
      simp only [List.cons_append, List.nil_append, unit, spelled]

theorem exists_of_unit_eq_ok {s rest : Bytes} {n : Nat} (h : unit s = .ok (n, rest)) :
    ∃ ds, s = ds ++ rest ∧ IsUnit ds n := by
  unfold unit at h
  split at h
  · rename_i a b c d t
    split at h
    · rename_i m spelled
      cases h
      exact ⟨[a, b, c, d], rfl, rfl, spelled⟩
    · cases h
  · cases h

theorem IsUnit.lt {ds : Bytes} {n : Nat} (h : IsUnit ds n) : n < 0x10000 := by
  have bound := Text.lt_pow_of_readDigits? h.spelled
  rw [List.length_map, h.four] at bound
  exact bound

theorem isLeading_iff {n : Nat} : isLeading n = true ↔ 0xD800 ≤ n ∧ n < 0xDC00 := by
  simp [isLeading]

theorem isTrailing_iff {n : Nat} : isTrailing n = true ↔ 0xDC00 ≤ n ∧ n < 0xE000 := by
  simp [isTrailing]

/-- Every character has a number that is no surrogate. -/
theorem toNat_bounds (c : Char) : c.toNat < 0xD800 ∨ 0xDFFF < c.toNat ∧ c.toNat < 0x110000 :=
  c.valid

theorem toNat_ofNat {n : Nat} (h : n < 0xD800 ∨ 0xDFFF < n ∧ n < 0x110000) :
    (Char.ofNat n).toNat = n := by
  rw [Char.ofNat, dif_pos h]
  rfl

/-! ## Characters in units -/

theorem expected_cons (b : UInt8) (s : Bytes) : expected b (b :: s) = .ok s := by
  rw [expected, if_pos rfl]

theorem eq_of_expected_eq_ok {b : UInt8} {s rest : Bytes} (h : expected b s = .ok rest) :
    s = b :: rest := by
  cases s with
  | nil => cases h
  | cons c s =>
      rw [expected] at h
      split at h
      · rename_i same
        rw [same, Except.ok.inj h]
      · cases h

theorem character_append {s : Bytes} {c : Char} (h : IsInUnits s c) (rest : Bytes) :
    character (s ++ rest) = .ok (c, rest) := by
  cases h with
  | single digits =>
      have bounds := toNat_bounds c
      have trailing : ¬isTrailing c.toNat = true := fun h => by
        have := isTrailing_iff.mp h
        omega
      have leading : ¬isLeading c.toNat = true := fun h => by
        have := isLeading_iff.mp h
        omega
      rw [character, unit_append digits, ok_bind]
      simp only [if_neg trailing, if_neg leading, Char.ofNat_toNat]
  | @paired ds es n m _ first second leading trailing meant =>
      have notTrailing : ¬isTrailing n = true := fun h => by
        have := isTrailing_iff.mp h
        omega
      have character : paired n m = c := by
        rw [paired, ← meant, Char.ofNat_toNat]
      rw [Literal.character, List.append_assoc, unit_append first, ok_bind]
      simp only [if_neg notTrailing, if_pos (isLeading_iff.mpr leading), List.cons_append,
        expected_cons, ok_bind, unit_append second, if_pos (isTrailing_iff.mpr trailing), character]

theorem exists_of_character_eq_ok {s rest : Bytes} {c : Char}
    (read : character s = .ok (c, rest)) : ∃ t, s = t ++ rest ∧ IsInUnits t c := by
  obtain ⟨⟨n, behind⟩, first, h⟩ := bind_eq_ok.mp read
  obtain ⟨ds, rfl, isUnit⟩ := exists_of_unit_eq_ok first
  have bound := isUnit.lt
  simp only at h
  split at h
  · cases h
  · rename_i notTrailing
    split at h
    · rename_i leading
      have leading := isLeading_iff.mp leading
      obtain ⟨afterBackslash, backslash, others⟩ := bind_eq_ok.mp h
      obtain ⟨afterLetter, letter, others⟩ := bind_eq_ok.mp others
      obtain ⟨⟨m, left⟩, second, last⟩ := bind_eq_ok.mp others
      obtain rfl := eq_of_expected_eq_ok backslash
      obtain rfl := eq_of_expected_eq_ok letter
      obtain ⟨es, rfl, isUnit'⟩ := exists_of_unit_eq_ok second
      simp only at last
      split at last
      · rename_i trailing
        have trailing := isTrailing_iff.mp trailing
        obtain ⟨meant, rfl⟩ := Prod.mk.inj (Except.ok.inj last)
        refine ⟨ds ++ ascii '\\' :: ascii 'u' :: es, by simp,
          .paired isUnit isUnit' leading trailing ?_⟩
        rw [← meant, paired, toNat_ofNat (by omega)]
      · cases last
    · rename_i notLeading
      cases h
      rw [isTrailing_iff] at notTrailing
      rw [isLeading_iff] at notLeading
      have number : (Char.ofNat n).toNat = n := toNat_ofNat (by omega)
      exact ⟨ds, rfl, .single (by rwa [number])⟩

/-- An escape is read as the form of its character. -/
theorem escape_append {s : Bytes} {c : Char} (h : IsEscape s c) (rest : Bytes) :
    escape (s ++ rest) = .ok (String.utf8EncodeChar c, rest) := by
  cases h with
  | short listed =>
      obtain ⟨read, small⟩ := shortEscape?_of_listed _ listed
      simp only [List.cons_append, List.nil_append, escape, read,
        Text.utf8EncodeChar_eq_ascii small]
  | units units =>
      have other : shortEscape? (ascii 'u') = none := by decide
      simp only [List.cons_append, escape, other, if_true, character_append units]
      rfl

theorem exists_of_escape_eq_ok {s rest bytes : Bytes} (h : escape s = .ok (bytes, rest)) :
    ∃ t c, s = t ++ rest ∧ IsEscape t c ∧ bytes = String.utf8EncodeChar c := by
  cases s with
  | nil => cases h
  | cons b s =>
      rw [escape] at h
      split at h
      · rename_i x read
        cases h
        obtain ⟨⟨letter, c⟩, listed, rfl, rfl⟩ := exists_of_shortEscape?_eq_some read
        have small := (shortEscape?_of_listed _ listed).2
        exact ⟨_, c, rfl, .short listed, (Text.utf8EncodeChar_eq_ascii small).symm⟩
      · split at h
        · rename_i letter
          subst letter
          obtain ⟨⟨c, left⟩, read, same⟩ := map_eq_ok.mp h
          cases same
          obtain ⟨t, rfl, units⟩ := exists_of_character_eq_ok read
          exact ⟨_, c, rfl, .units units, rfl⟩
        · cases h

/-! ## Pieces -/

/-- Whether a byte of a string stands for itself. -/
structure IsPlain (b : UInt8) : Prop where
  shown : 0x20 ≤ b
  quote : b ≠ ascii '\x22'
  backslash : b ≠ ascii '\\'

/-- How the bytes of a string make bytes, byte for byte and escape for escape. -/
inductive Pieces : Bytes → Bytes → Prop
  | nil : Pieces [] []
  | plain {b : UInt8} {s m : Bytes} (first : IsPlain b) (others : Pieces s m) :
      Pieces (b :: s) (b :: m)
  | escaped {e s m : Bytes} {c : Char} (first : IsEscape e c) (others : Pieces s m) :
      Pieces (ascii '\\' :: (e ++ s)) (String.utf8EncodeChar c ++ m)

/-- Pieces are gathered to the closing quote. -/
theorem repeated_piece_of_pieces {s m : Bytes} (h : Pieces s m) (sofar rest : Bytes) :
    repeated piece sofar (s ++ ascii '\x22' :: rest) = .ok (m.reverse ++ sofar, rest) := by
  induction h generalizing sofar with
  | nil =>
      refine repeated_of_stop ?_
      rw [List.nil_append, piece, if_pos rfl]
      rfl
  | @plain b s m first others ih =>
      have step : piece sofar (b :: s ++ ascii '\x22' :: rest) =
          .ok (.inl (b :: sofar), s ++ ascii '\x22' :: rest) := by
        rw [List.cons_append, piece, if_neg first.quote, if_neg first.backslash,
          if_neg (by simpa using first.shown)]
      refine (repeated_of_go step (by simp) (ih (b :: sofar))).trans ?_
      simp
  | @escaped e s m c first others ih =>
      have step : piece sofar (ascii '\\' :: (e ++ s) ++ ascii '\x22' :: rest) =
          .ok (.inl ((String.utf8EncodeChar c).reverse ++ sofar), s ++ ascii '\x22' :: rest) := by
        have other : ascii '\\' ≠ ascii '\x22' := by decide
        rw [List.cons_append, List.append_assoc, piece, if_neg other, if_pos rfl,
          escape_append first]
        rfl
      refine (repeated_of_go step ?_ (ih _)).trans ?_
      · simp only [List.length_append, List.length_cons]
        omega
      · simp

theorem pieces_of_runs {sofar last s rest : Bytes} (h : Runs piece sofar s last rest) :
    ∃ t m, s = t ++ ascii '\x22' :: rest ∧ Pieces t m ∧ last = m.reverse ++ sofar := by
  induction h with
  | @stop sofar last s rest stops =>
      cases s with
      | nil => cases stops
      | cons b s =>
          rw [piece] at stops
          split at stops
          · rename_i quote
            cases stops
            exact ⟨[], [], by rw [quote]; rfl, .nil, rfl⟩
          · split at stops
            · obtain ⟨⟨bytes, left⟩, -, same⟩ := map_eq_ok.mp stops
              cases same
            · split at stops <;> cases stops
  | @go sofar next last s left rest goes onward ih =>
      obtain ⟨t, m, rfl, pieces, rfl⟩ := ih
      cases s with
      | nil => cases goes
      | cons b s =>
          rw [piece] at goes
          split at goes
          · cases goes
          · rename_i quote
            split at goes
            · rename_i backslash
              obtain ⟨⟨bytes, left⟩, read, same⟩ := map_eq_ok.mp goes
              cases same
              obtain ⟨e, c, rfl, isEscape, rfl⟩ := exists_of_escape_eq_ok read
              refine ⟨b :: (e ++ t), String.utf8EncodeChar c ++ m, by simp, ?_, by simp⟩
              exact backslash ▸ .escaped isEscape pieces
            · rename_i backslash
              split at goes
              · cases goes
              · rename_i shown
                cases goes
                exact ⟨b :: t, b :: m, rfl, .plain ⟨by simpa using shown, quote, backslash⟩ pieces,
                  by simp⟩

/-! ## Characters -/

theorem isPlain_of_following {b : UInt8} (h : 0x80 ≤ b) : IsPlain b := by
  have great : 0x80 ≤ b.toNat := UInt8.le_iff_toNat_le.mp h
  refine ⟨UInt8.le_iff_toNat_le.mpr (Nat.le_trans (by decide) great), ?_, ?_⟩
  all_goals
    rintro rfl
    exact absurd great (by decide)

/-- Which characters of ASCII stand for themselves. -/
theorem isPlain_ascii_iff {c : Char} (small : c.toNat < 0x80) :
    IsPlain (ascii c) ↔ 0x20 ≤ c.toNat ∧ c ≠ '\x22' ∧ c ≠ '\\' := by
  have shown : 0x20 ≤ ascii c ↔ 0x20 ≤ c.toNat := by
    rw [UInt8.le_iff_toNat_le, Text.toNat_ascii small]
    rfl
  have same {d : Char} (small' : d.toNat < 0x80) : ascii c = ascii d ↔ c = d := by
    rw [← UInt8.toNat_inj, Text.toNat_ascii small, Text.toNat_ascii small', Char.toNat_inj]
  constructor
  · rintro ⟨atLeast, quote, backslash⟩
    exact ⟨shown.mp atLeast, fun h => quote ((same (by decide)).mpr h),
      fun h => backslash ((same (by decide)).mpr h)⟩
  · rintro ⟨atLeast, quote, backslash⟩
    exact ⟨shown.mpr atLeast, fun h => quote ((same (by decide)).mp h),
      fun h => backslash ((same (by decide)).mp h)⟩

/-- A character that stands for itself does so with all its bytes. -/
theorem isPlain_of_mem_utf8EncodeChar {c : Char} (shown : 0x20 ≤ c.toNat) (quote : c ≠ '\x22')
    (backslash : c ≠ '\\') : ∀ b ∈ String.utf8EncodeChar c, IsPlain b := by
  intro b hb
  rcases Text.utf8EncodeChar_cases c with ⟨small, form⟩ | ⟨-, d, ds, form, leading, following⟩
  · rw [form] at hb
    obtain rfl := List.mem_singleton.mp hb
    exact (isPlain_ascii_iff small).mpr ⟨shown, quote, backslash⟩
  · rw [form] at hb
    rcases List.mem_cons.mp hb with rfl | hb
    · exact isPlain_of_following (UInt8.le_trans (by decide) leading)
    · exact isPlain_of_following (following b hb).1

theorem Pieces.append_plain {bs s m : Bytes} (h : ∀ b ∈ bs, IsPlain b) (others : Pieces s m) :
    Pieces (bs ++ s) (bs ++ m) := by
  induction bs with
  | nil => exact others
  | cons b bs ih =>
      exact .plain (h b List.mem_cons_self) (ih fun d hd => h d (List.mem_cons_of_mem b hd))

/-- Characters are spelled in pieces. -/
theorem pieces_of_spellsAll {s : Bytes} {cs : List Char} (h : SpellsAll s cs) :
    Pieces s (Text.utf8Chars cs) := by
  induction h with
  | nil => exact .nil
  | cons first others ih =>
      rw [Text.utf8Chars_cons]
      cases first with
      | plain shown quote backslash =>
          exact ih.append_plain (isPlain_of_mem_utf8EncodeChar shown quote backslash)
      | escaped isEscape => exact .escaped isEscape ih

/-- Bytes that only follow others stand for themselves. -/
theorem Pieces.exists_of_following {bs s m : Bytes} (following : ∀ b ∈ bs, Text.IsFollowing b)
    (h : Pieces s (bs ++ m)) : ∃ t, s = bs ++ t ∧ Pieces t m := by
  induction bs generalizing s with
  | nil => exact ⟨s, rfl, h⟩
  | cons b bs ih =>
      have isFollowing := following b List.mem_cons_self
      generalize whole : b :: bs ++ m = bytes at h
      cases h with
      | nil => cases whole
      | plain first others =>
          obtain ⟨rfl, rfl⟩ := List.cons.inj whole
          obtain ⟨t, rfl, pieces⟩ := ih (fun d hd => following d (List.mem_cons_of_mem b hd)) others
          exact ⟨t, rfl, pieces⟩
      | escaped =>
          exact absurd isFollowing (Text.not_isFollowing_of_utf8EncodeChar_eq whole.symm)

theorem spellsAll_of_pieces {s : Bytes} {cs : List Char} (h : Pieces s (Text.utf8Chars cs)) :
    SpellsAll s cs := by
  induction cs generalizing s with
  | nil =>
      generalize none : Text.utf8Chars [] = bytes at h
      cases h with
      | nil => exact .nil
      | plain => cases none
      | escaped =>
          have empty := (List.append_eq_nil_iff.mp none.symm).1
          exact absurd empty String.utf8EncodeChar_ne_nil
  | cons c cs ih =>
      generalize whole : Text.utf8Chars (c :: cs) = bytes at h
      rw [Text.utf8Chars_cons] at whole
      cases h with
      | nil =>
          have empty := (List.append_eq_nil_iff.mp whole).1
          exact absurd empty String.utf8EncodeChar_ne_nil
      | escaped first others =>
          obtain ⟨rfl, rfl⟩ := Text.utf8EncodeChar_append_inj whole
          exact .cons (.escaped first) (ih others)
      | @plain b s m first others =>
          rcases Text.utf8EncodeChar_cases c with ⟨small, form⟩ | ⟨great, d, ds, form, -, following⟩
          · rw [form] at whole
            obtain ⟨rfl, rfl⟩ := List.cons.inj whole
            obtain ⟨shown, quote, backslash⟩ := (isPlain_ascii_iff small).mp first
            have spelled : Spells [ascii c] c := form ▸ .plain shown quote backslash
            exact .cons spelled (ih others)
          · rw [form] at whole
            obtain ⟨rfl, rfl⟩ := List.cons.inj whole
            obtain ⟨t, rfl, pieces⟩ := others.exists_of_following following
            have spelled : Spells (d :: ds) c := by
              rw [← form]
              refine .plain (Nat.le_trans (by decide) great) ?_ ?_
              all_goals
                rintro rfl
                exact absurd great (by decide)
            exact .cons spelled (ih pieces)

/-! ## Strings -/

/-- A string is read exactly from what spells it, up to its closing quote. -/
theorem read_eq_ok_iff {s rest : Bytes} {text : String} :
    read s = .ok (text, rest) ↔
      ∃ inner, s = inner ++ ascii '\x22' :: rest ∧ SpellsAll inner text.toList := by
  constructor
  · intro h
    obtain ⟨⟨bytes, left⟩, gathered, last⟩ := bind_eq_ok.mp h
    obtain ⟨inner, m, rfl, pieces, rfl⟩ := pieces_of_runs (runs_of_repeated gathered)
    simp only [List.append_nil, List.reverse_reverse] at last
    split at last
    · rename_i spelled
      cases last
      rw [Text.ofUtf8?_eq_some_iff.mp spelled] at pieces
      exact ⟨inner, rfl, spellsAll_of_pieces pieces⟩
    · cases last
  · rintro ⟨inner, rfl, spelled⟩
    rw [read, repeated_piece_of_pieces (pieces_of_spellsAll spelled) [] rest, ok_bind]
    simp only [List.append_nil, List.reverse_reverse]
    rw [← Text.utf8, Text.ofUtf8?_utf8]

end RegionApi.Json.Literal
