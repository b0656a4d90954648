import RegionApi.Proofs.Text.Order

/-!
# Texts are told from their bytes

No form of a character begins that of another, so a character is told from what begins with its form
(`utf8EncodeChar_append_inj`). Which bytes are the form of a text is therefore settled
(`ofUtf8?_eq_some_iff`). A form is one byte of ASCII, or a byte that leads and others that only
follow (`utf8EncodeChar_cases`).
-/

namespace RegionApi.Text

/-! ## Characters -/

/-- A character is told from its form, whatever stands behind it. -/
theorem utf8EncodeChar_append_inj {c d : Char} {xs ys : Bytes}
    (h : String.utf8EncodeChar c ++ xs = String.utf8EncodeChar d ++ ys) : c = d ∧ xs = ys := by
  rcases lt_trichotomy c d with less | rfl | greater
  · have lt := utf8EncodeChar_append_lt less xs ys
    rw [h] at lt
    exact absurd lt (List.lt_irrefl _)
  · exact ⟨rfl, List.append_cancel_left h⟩
  · have lt := utf8EncodeChar_append_lt greater ys xs
    rw [h] at lt
    exact absurd lt (List.lt_irrefl _)

/-- A character of ASCII is its own byte. -/
theorem utf8EncodeChar_eq_ascii {c : Char} (h : c.toNat < 0x80) :
    String.utf8EncodeChar c = [ascii c] := by
  have small : c.val.toNat ≤ 0x7f := Nat.le_of_lt_succ h
  simp only [String.utf8EncodeChar, if_pos small]
  rfl

theorem toNat_ascii {c : Char} (h : c.toNat < 0x80) : (ascii c).toNat = c.toNat := by
  rw [ascii, UInt8.toNat_ofNat']
  exact Nat.mod_eq_of_lt (Nat.lt_trans h (by decide))

/-- Whether a byte only follows others in the form of a character. -/
def IsFollowing (b : UInt8) : Prop := 0x80 ≤ b ∧ b < 0xC0

/-- The form of a character is a byte of ASCII, or it has a leading byte and following ones. -/
theorem utf8EncodeChar_cases (c : Char) :
    (c.toNat < 0x80 ∧ String.utf8EncodeChar c = [ascii c]) ∨
      (0x80 ≤ c.toNat ∧ ∃ b bs, String.utf8EncodeChar c = b :: bs ∧ 0xC0 ≤ b ∧
        ∀ d ∈ bs, IsFollowing d) := by
  by_cases small : c.toNat < 0x80
  · exact .inl ⟨small, utf8EncodeChar_eq_ascii small⟩
  · refine .inr ⟨Nat.not_lt.mp small, ?_⟩
    have great : ¬c.val.toNat ≤ 0x7f := fun less => small (Nat.lt_succ_of_le less)
    have bound : c.val.toNat < 0x110000 := by
      rcases c.valid with low | ⟨-, high⟩
      · exact Nat.lt_trans low (by decide)
      · exact high
    simp only [String.utf8EncodeChar, if_neg great]
    repeat' split
    all_goals
      refine ⟨_, _, rfl, ?_, ?_⟩
      · simp only [UInt8.le_iff_toNat_le, UInt8.toNat_ofNat', UInt8.reduceToNat]
        omega
      · simp only [List.mem_cons, List.not_mem_nil, or_false, forall_eq_or_imp, forall_eq,
          IsFollowing, UInt8.le_iff_toNat_le, UInt8.lt_iff_toNat_lt, UInt8.toNat_ofNat',
          UInt8.reduceToNat]
        omega

/-- No character begins with a byte that only follows others. -/
theorem not_isFollowing_of_utf8EncodeChar_eq {c : Char} {b : UInt8} {xs ys : Bytes}
    (h : String.utf8EncodeChar c ++ xs = b :: ys) : ¬IsFollowing b := by
  rintro ⟨lower, upper⟩
  rcases utf8EncodeChar_cases c with ⟨small, form⟩ | ⟨-, d, ds, form, leading, -⟩
  · rw [form] at h
    obtain rfl : ascii c = b := (List.cons.inj h).1
    have great := UInt8.le_iff_toNat_le.mp lower
    rw [toNat_ascii small] at great
    exact absurd small (Nat.not_lt.mpr great)
  · rw [form] at h
    obtain rfl : d = b := (List.cons.inj h).1
    exact absurd upper (UInt8.not_lt.mpr leading)

/-! ## Texts -/

/-- The bytes that spell a text are its form. -/
theorem ofUtf8?_eq_some_iff {bytes : Bytes} {text : String} :
    ofUtf8? bytes = some text ↔ bytes = utf8 text := by
  constructor
  · intro read
    have spelled := read
    rw [ofUtf8?, String.fromUTF8?] at read
    split at read
    · rename_i valid
      obtain ⟨cs, same⟩ := valid
      have form : bytes = utf8 (String.ofList cs) := by
        rw [utf8, String.toList_ofList]
        exact List.toByteArray_inj.mp same
      rw [form, ofUtf8?_utf8] at spelled
      rw [form, Option.some.inj spelled]
    · cases read
  · rintro rfl
    exact ofUtf8?_utf8 text

end RegionApi.Text
