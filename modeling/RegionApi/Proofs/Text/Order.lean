import Mathlib.Data.String.Basic
import RegionApi.Text.Bytes

/-!
# The order of texts is that of their bytes

Texts are compared by their characters, and the same comes of comparing the bytes of their UTF-8
forms (`utf8_le_iff`): of two characters the greater one has the greater form, and neither form
begins the other.
-/

namespace RegionApi.Text

/-- The bytes of two characters already tell which is less, whatever follows them. -/
theorem utf8EncodeChar_append_lt {c d : Char} (h : c < d) (xs ys : Bytes) :
    String.utf8EncodeChar c ++ xs < String.utf8EncodeChar d ++ ys := by
  have less : c.val.toNat < d.val.toNat := h
  have bound : d.val.toNat < 0x110000 := by
    rcases d.valid with low | ⟨-, high⟩
    · exact Nat.lt_trans low (by decide)
    · exact high
  -- Every byte but the first holds six bits, so the bytes are digits in base 64.
  have twice (n : Nat) : n / 4096 = n / 64 / 64 := by omega
  have thrice (n : Nat) : n / 262144 = n / 64 / 64 / 64 := by omega
  simp only [String.utf8EncodeChar, twice, thrice]
  repeat' split
  all_goals
    simp only [List.cons_append, List.nil_append, List.cons_lt_cons_iff, UInt8.lt_iff_toNat_lt,
      ← UInt8.toNat_inj, UInt8.toNat_ofNat']
    omega

theorem utf8Chars_lt {cs ds : List Char} (h : cs < ds) : utf8Chars cs < utf8Chars ds := by
  induction cs generalizing ds with
  | nil =>
      cases ds with
      | nil => cases h
      | cons d ds =>
          obtain ⟨b, bs, form⟩ := List.exists_cons_of_ne_nil (String.utf8EncodeChar_ne_nil (c := d))
          rw [utf8Chars_nil, utf8Chars_cons, form]
          exact List.nil_lt_cons _ _
  | cons c cs ih =>
      cases ds with
      | nil => cases h
      | cons d ds =>
          rw [utf8Chars_cons, utf8Chars_cons]
          rcases List.cons_lt_cons_iff.mp h with less | ⟨rfl, rest⟩
          · exact utf8EncodeChar_append_lt less _ _
          · exact List.append_left_lt (ih rest)

/-- The lesser text has the lesser form. -/
theorem utf8_lt {s t : String} (h : s < t) : utf8 s < utf8 t :=
  utf8Chars_lt (String.lt_iff_toList_lt.mp h)

/-- Texts are in the order of their bytes. -/
theorem utf8_le_iff {s t : String} : utf8 s ≤ utf8 t ↔ s ≤ t := by
  rw [← List.not_lt, ← String.not_lt]
  constructor
  · intro notLess less
    exact notLess (utf8_lt less)
  · intro notLess less
    rcases lt_trichotomy s t with greater | rfl | less'
    · exact List.lt_asymm less (utf8_lt greater)
    · exact List.lt_irrefl _ less
    · exact notLess less'

end RegionApi.Text
