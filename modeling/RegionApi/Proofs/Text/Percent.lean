import RegionApi.Text.Percent

/-!
# Percent-encoding is undone by decoding

The characters that stand for themselves differ from place to place, so both main statements leave
them open: `decodeChars_encodeChars` says that the bytes of a text are read back from its encoding
as long as the percent sign is not kept, and `forall_mem_encodeChars` bounds what an encoding is
made of by what is kept, the percent sign and the hexadecimal digits.
-/

namespace RegionApi.Text

namespace Percent

/-! ## Reading back -/

/-- A character other than the percent sign stands for its own bytes. -/
theorem decodeChars_cons_of_ne {c : Char} (h : c ≠ '%') (rest : List Char) :
    decodeChars (c :: rest) = String.utf8EncodeChar c ++ decodeChars rest := by
  rw [decodeChars]
  rintro a b rest' rfl
  exact absurd rfl h

/-- Text without a percent sign stands for its own bytes. -/
theorem decodeChars_of_notMem {cs : List Char} (h : '%' ∉ cs) : decodeChars cs = utf8Chars cs := by
  induction cs with
  | nil => rfl
  | cons c cs ih =>
      obtain ⟨first, others⟩ := List.ne_and_not_mem_of_not_mem_cons h
      rw [decodeChars_cons_of_ne first.symm, ih others, utf8Chars_cons]

/-- An escape is read back as its byte. -/
theorem decodeChars_escape (b : UInt8) (rest : List Char) :
    decodeChars (escape b ++ rest) = b :: decodeChars rest := by
  have hb : b.toNat < 256 := UInt8.toNat_lt_size b
  have high : hexValue? (hexDigit (b.toNat / 16)) = some (b.toNat / 16) :=
    hexValue?_hexDigit _ (by omega)
  have low : hexValue? (hexDigit (b.toNat % 16)) = some (b.toNat % 16) :=
    hexValue?_hexDigit _ (by omega)
  have whole : 16 * (b.toNat / 16) + b.toNat % 16 = b.toNat := by omega
  simp only [escape, List.cons_append, List.nil_append, decodeChars, high, low, whole,
    UInt8.ofNat_toNat]

theorem decodeChars_escapes (bs : Bytes) (rest : List Char) :
    decodeChars (bs.flatMap escape ++ rest) = bs ++ decodeChars rest := by
  induction bs with
  | nil => rfl
  | cons b bs ih =>
      rw [List.flatMap_cons, List.append_assoc, decodeChars_escape, ih, List.cons_append]

theorem decodeChars_encodeChar {keep : Char → Bool} (h : keep '%' = false) (c : Char)
    (rest : List Char) :
    decodeChars (encodeChar keep c ++ rest) = String.utf8EncodeChar c ++ decodeChars rest := by
  unfold encodeChar
  split
  · rename_i kept
    have ne : c ≠ '%' := by
      rintro rfl
      rw [h] at kept
      cases kept
    exact decodeChars_cons_of_ne ne rest
  · exact decodeChars_escapes _ rest

/-- What is encoded is read back as the bytes of the text, if the percent sign is itself encoded. -/
theorem decodeChars_encodeChars {keep : Char → Bool} (h : keep '%' = false)
    (cs rest : List Char) :
    decodeChars (encodeChars keep cs ++ rest) = utf8Chars cs ++ decodeChars rest := by
  induction cs with
  | nil => rfl
  | cons c cs ih =>
      rw [encodeChars_cons, List.append_assoc, decodeChars_encodeChar h, ih, utf8Chars_cons,
        List.append_assoc]

/-- The characters of a text are spelled by what its encoding stands for. -/
theorem ofUtf8?_decodeChars_encodeChars {keep : Char → Bool} (h : keep '%' = false)
    (s : String) : ofUtf8? (decodeChars (encodeChars keep s.toList)) = some s := by
  have bytes : decodeChars (encodeChars keep s.toList) = utf8 s := by
    have whole := decodeChars_encodeChars h s.toList []
    rw [List.append_nil, decodeChars, List.append_nil] at whole
    exact whole
  rw [bytes, ofUtf8?_utf8]

/-! ## What encoded text is made of -/

/-- Letters and digits stand between the digit zero and the letter z. -/
theorem toNat_bounds_of_isAlphanum {c : Char} (h : c.isAlphanum = true) :
    0x30 ≤ c.toNat ∧ c.toNat ≤ 0x7a := by
  have within {least most : Char} (lower : c.val ≥ least.val) (upper : c.val ≤ most.val)
      (zero : 0x30 ≤ least.toNat) (z : most.toNat ≤ 0x7a) : 0x30 ≤ c.toNat ∧ c.toNat ≤ 0x7a :=
    ⟨Nat.le_trans zero (UInt32.le_iff_toNat_le.mp lower),
      Nat.le_trans (UInt32.le_iff_toNat_le.mp upper) z⟩
  rcases Bool.or_eq_true_iff.mp h with letter | digit
  · rcases Bool.or_eq_true_iff.mp letter with capital | small
    · obtain ⟨lower, upper⟩ := of_decide_eq_true capital
      exact within lower upper (by decide) (by decide)
    · obtain ⟨lower, upper⟩ := Bool.and_eq_true_iff.mp small
      exact within (of_decide_eq_true lower) (of_decide_eq_true upper) (by decide) (by decide)
  · obtain ⟨lower, upper⟩ := Bool.and_eq_true_iff.mp digit
    exact within (of_decide_eq_true lower) (of_decide_eq_true upper) (by decide) (by decide)

/-- What holds of the percent sign and of the hexadecimal digits holds throughout an escape. -/
theorem forall_mem_escape {p : Char → Prop} (percent : p '%') (digit : ∀ n < 16, p (hexDigit n))
    (b : UInt8) : ∀ c ∈ escape b, p c := by
  have hb : b.toNat < 256 := UInt8.toNat_lt_size b
  intro c hc
  simp only [escape, List.mem_cons, List.not_mem_nil, or_false] at hc
  rcases hc with rfl | rfl | rfl
  · exact percent
  · exact digit _ (by omega)
  · exact digit _ (by omega)

theorem forall_mem_encodeChar {keep : Char → Bool} {p : Char → Prop}
    (kept : ∀ c, keep c = true → p c) (percent : p '%') (digit : ∀ n < 16, p (hexDigit n))
    (c : Char) : ∀ d ∈ encodeChar keep c, p d := by
  intro d hd
  unfold encodeChar at hd
  split at hd
  · rename_i h
    rw [List.mem_singleton.mp hd]
    exact kept c h
  · obtain ⟨b, -, hb⟩ := List.mem_flatMap.mp hd
    exact forall_mem_escape percent digit b d hb

/-- What holds of the kept characters, the percent sign and the hexadecimal digits holds throughout
an encoding. -/
theorem forall_mem_encodeChars {keep : Char → Bool} {p : Char → Prop}
    (kept : ∀ c, keep c = true → p c) (percent : p '%') (digit : ∀ n < 16, p (hexDigit n))
    (cs : List Char) : ∀ c ∈ encodeChars keep cs, p c := by
  intro c hc
  obtain ⟨d, -, hd⟩ := List.mem_flatMap.mp hc
  exact forall_mem_encodeChar kept percent digit d c hd

/-- A character that no escape is made of gets into an encoding only from the text itself. -/
theorem notMem_encodeChars {keep : Char → Bool} {x : Char} (percent : '%' ≠ x)
    (digit : ∀ n < 16, hexDigit n ≠ x) {cs : List Char} (h : x ∉ cs) :
    x ∉ encodeChars keep cs := by
  intro hx
  obtain ⟨c, hc, hx⟩ := List.mem_flatMap.mp hx
  unfold encodeChar at hx
  split at hx
  · exact h (List.mem_singleton.mp hx ▸ hc)
  · obtain ⟨b, -, hb⟩ := List.mem_flatMap.mp hx
    exact forall_mem_escape (p := (· ≠ x)) percent digit b x hb rfl

end Percent

/-! ## Joined texts -/

/-- The characters of joined parts are those of the parts and of what joins them. -/
theorem mem_intercalate {sep : List Char} {parts : List (List Char)} {c : Char}
    (h : c ∈ sep.intercalate parts) : c ∈ sep ∨ ∃ part ∈ parts, c ∈ part := by
  induction parts with
  | nil => cases h
  | cons part parts ih =>
      cases parts with
      | nil =>
          rw [List.intercalate_singleton] at h
          exact .inr ⟨part, List.mem_cons_self, h⟩
      | cons next parts =>
          rw [List.intercalate_cons_cons, List.mem_append, List.mem_append] at h
          rcases h with (h | h) | h
          · exact .inr ⟨part, List.mem_cons_self, h⟩
          · exact .inl h
          · rcases ih h with h | ⟨later, hlater, h⟩
            · exact .inl h
            · exact .inr ⟨later, List.mem_cons_of_mem _ hlater, h⟩

/-- A character that joins no parts is in joined parts as often as in all of them. -/
theorem count_intercalate {sep : List Char} {x : Char} {n : Nat} {parts : List (List Char)}
    (joins : x ∉ sep) (each : ∀ part ∈ parts, part.count x = n) :
    (sep.intercalate parts).count x = n * parts.length := by
  induction parts with
  | nil => rfl
  | cons part parts ih =>
      obtain ⟨first, others⟩ := List.forall_mem_cons.mp each
      cases parts with
      | nil => rw [List.intercalate_singleton, first, List.length_singleton, Nat.mul_one]
      | cons next parts =>
          rw [List.intercalate_cons_cons, List.count_append, List.count_append,
            List.count_eq_zero.mpr joins, ih others, first, Nat.add_zero]
          exact (Nat.add_comm _ _).trans (Nat.mul_succ n (next :: parts).length).symm

end RegionApi.Text
