import RegionApi.Proofs.Text.Digits
import RegionApi.Text.Quoted

/-!
# Quoted text is read back

A quoted text shows each character in a form that no other character has, and none of these forms
begins with a quotation mark. So the mark that closes the text is found whatever follows it, and the
text is told (`quoted_append_inj`).
-/

namespace RegionApi.Text

/-! ## Reading a character back -/

/-- The letters of the short escapes, with the characters they stand for. -/
def escapeLetters : List (Char × Char) :=
  [('0', '\x00'), ('t', '\t'), ('r', '\r'), ('n', '\n'), ('\\', '\\'), ('"', '"')]

/-- The character that an escape stands for, and what follows. The backslash is read already. -/
def readEscape? : List Char → Option (Char × List Char)
  | 'u' :: '\x7b' :: rest =>
    (readDigits? 16 (rest.takeWhile (· ≠ '\x7d'))).map
      fun n => (Char.ofNat n, (rest.dropWhile (· ≠ '\x7d')).drop 1)
  | letter :: rest => (escapeLetters.lookup letter).map fun c => (c, rest)
  | [] => none

/-- The next character of a quoted text, and what follows; there is none before a quotation mark. -/
def readQuoted? : List Char → Option (Char × List Char)
  | '"' :: _ => none
  | '\\' :: rest => readEscape? rest
  | c :: rest => some (c, rest)
  | [] => none

theorem quotedChar_of_mem_escapeLetters :
    ∀ p ∈ escapeLetters, quotedChar p.2 = ['\\', p.1] := by decide

theorem readEscape?_of_mem_escapeLetters {p : Char × Char} (h : p ∈ escapeLetters)
    (rest : List Char) : readEscape? (p.1 :: rest) = some (p.2, rest) := by
  simp only [escapeLetters, List.mem_cons, List.not_mem_nil, or_false] at h
  rcases h with rfl | rfl | rfl | rfl | rfl | rfl <;> rfl

/-- A character without a short escape stands for itself, or its number stands for it. -/
theorem quotedChar_of_notMem {c : Char} (h : c ∉ escapeLetters.map Prod.snd) :
    quotedChar c =
      if isShown c then [c] else '\\' :: 'u' :: '\x7b' :: hexadecimal c.toNat ++ ['\x7d'] := by
  simp only [escapeLetters, List.map_cons, List.map_nil, List.mem_cons, List.not_mem_nil, or_false,
    not_or] at h
  obtain ⟨nul, tab, ret, feed, backslash, mark⟩ := h
  rw [quotedChar, if_neg nul, if_neg tab, if_neg ret, if_neg feed, if_neg backslash, if_neg mark]
  rfl

theorem readEscape?_number (c : Char) (rest : List Char) :
    readEscape? ('u' :: '\x7b' :: hexadecimal c.toNat ++ '\x7d' :: rest) = some (c, rest) := by
  have digits : ∀ d ∈ hexadecimal c.toNat, decide (d ≠ '\x7d') = true := by
    intro d hd
    apply decide_eq_true
    rintro rfl
    exact ne_of_mem_hexadecimal (by decide) hd
  simp only [readEscape?, List.cons_append, List.takeWhile_append_of_pos digits,
    List.dropWhile_append_of_pos digits]
  simp [readDigits?_hexadecimal, Char.ofNat_toNat]

/-- Every character is read back from its form in a quoted text, whatever follows. -/
theorem readQuoted?_quotedChar (c : Char) (rest : List Char) :
    readQuoted? (quotedChar c ++ rest) = some (c, rest) := by
  by_cases short : c ∈ escapeLetters.map Prod.snd
  · obtain ⟨p, hp, rfl⟩ := List.mem_map.mp short
    rw [quotedChar_of_mem_escapeLetters p hp]
    exact readEscape?_of_mem_escapeLetters hp rest
  · rw [quotedChar_of_notMem short]
    split
    · have mark : c ≠ '"' := fun same => short (same ▸ by decide)
      have backslash : c ≠ '\\' := fun same => short (same ▸ by decide)
      rw [List.singleton_append, readQuoted?]
      · exact mark
      · exact backslash
    · simpa [readQuoted?] using readEscape?_number c rest

/-! ## Whole texts -/

/-- Quoted characters up to a quotation mark are told, and so is what follows the mark. -/
theorem flatMap_quotedChar_append_inj {cs ds r s : List Char} :
    cs.flatMap quotedChar ++ '"' :: r = ds.flatMap quotedChar ++ '"' :: s ↔ cs = ds ∧ r = s := by
  constructor
  · intro h
    induction cs generalizing ds with
    | nil =>
        cases ds with
        | nil => exact ⟨rfl, List.tail_eq_of_cons_eq h⟩
        | cons d ds =>
            have read := congrArg readQuoted? h
            rw [List.flatMap_cons, List.append_assoc, readQuoted?_quotedChar] at read
            cases read
    | cons c cs ih =>
        have read := congrArg readQuoted? h
        rw [List.flatMap_cons, List.append_assoc, readQuoted?_quotedChar] at read
        cases ds with
        | nil => cases read
        | cons d ds =>
            rw [List.flatMap_cons, List.append_assoc, readQuoted?_quotedChar] at read
            obtain ⟨rfl, behind⟩ := Prod.mk.inj (Option.some.inj read)
            obtain ⟨rfl, rest⟩ := ih behind
            exact ⟨rfl, rest⟩
  · rintro ⟨rfl, rfl⟩
    rfl

theorem toList_quoted_append (s r : String) :
    (quoted s ++ r).toList = '"' :: (s.toList.flatMap quotedChar ++ '"' :: r.toList) := by
  simp [quoted]

/-- A quoted text is told, and so is what follows it. -/
theorem quoted_append_inj {s t r r' : String} :
    quoted s ++ r = quoted t ++ r' ↔ s = t ∧ r = r' := by
  rw [← String.toList_inj, toList_quoted_append, toList_quoted_append, List.cons.injEq,
    flatMap_quotedChar_append_inj, String.toList_inj, String.toList_inj]
  exact and_iff_right rfl

end RegionApi.Text
