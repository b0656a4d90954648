import RegionApi.Proofs.Text.Percent
import RegionApi.Url.Escape

/-!
# Parts in their written spelling

A part of a URL that is made of what it keeps is spelled as it is written (`text_eq_of_isKept`), and
whatever is written for a part is made of what it keeps, escapes among it (`isKept_text`). So a
part that has once been written is written the same ever after.
-/

namespace RegionApi.Url.Escape

open Text (hexDigit)

/-- Whether a part is made of characters that it keeps. -/
def IsKept (keep : Char → Bool) (s : String) : Prop := ∀ c ∈ s.toList, keep c = true

/-- Whether the characters of an escape are among those that a part keeps. -/
structure KeepsEscapes (keep : Char → Bool) : Prop where
  percent : keep '%' = true
  digit : ∀ n < 16, keep (hexDigit n) = true

theorem keepsEscapes_fragment : KeepsEscapes fragment := ⟨by decide, by decide⟩

theorem keepsEscapes_path : KeepsEscapes path := ⟨by decide, by decide⟩

theorem keepsEscapes_query (special : Bool) : KeepsEscapes (query special) := by
  cases special <;> exact ⟨by decide, by decide⟩

theorem keepsEscapes_userInfo : KeepsEscapes userInfo := ⟨by decide, by decide⟩

section Kept

variable {keep : Char → Bool}

theorem isKept_empty (keep : Char → Bool) : IsKept keep "" := fun _ hc => absurd hc (by simp)

/-- What is written for a part is made of what the part keeps. -/
theorem isKept_text (escapes : KeepsEscapes keep) (cs : List Char) : IsKept keep (text keep cs) := by
  intro c hc
  rw [text, String.toList_ofList] at hc
  exact Text.Percent.forall_mem_encodeChars (fun _ kept => kept) escapes.percent escapes.digit cs c
    hc

/-- A part made of what it keeps is spelled as it is written. -/
theorem text_eq_of_isKept {s : String} (h : IsKept keep s) : text keep s.toList = s := by
  rw [text, Text.Percent.encodeChars_of_kept h, String.ofList_toList]

theorem IsKept.notMem {s : String} (h : IsKept keep s) {c : Char} (escaped : keep c = false) :
    c ∉ s.toList := by
  intro hc
  rw [h c hc] at escaped
  cases escaped

/-- No character is lost when a part is written. -/
theorem text_ne_empty {cs : List Char} (h : cs ≠ []) : text keep cs ≠ "" := by
  obtain ⟨c, rest, rfl⟩ := List.exists_cons_of_ne_nil h
  intro empty
  have chars := congrArg String.toList empty
  rw [text, String.toList_ofList, Text.Percent.encodeChars_cons] at chars
  have first := (List.append_eq_nil_iff.mp chars).1
  unfold Text.Percent.encodeChar at first
  split at first
  · cases first
  · rw [List.flatMap_eq_nil_iff] at first
    obtain ⟨b, bs, bytes⟩ := List.exists_cons_of_ne_nil (String.utf8EncodeChar_ne_nil (c := c))
    have none := first b (bytes ▸ List.mem_cons_self)
    cases none

end Kept

/-! ## What no part keeps -/

/-- What is kept in a URL can be printed and seen. -/
def isPlain (c : Char) : Bool := 0x20 < c.toNat && c.toNat < 0x7f

theorem isPlain_of_printable {c : Char} (printable : printable c = true) (space : c ≠ ' ') :
    isPlain c = true := by
  have bounds : 0x20 ≤ c.toNat ∧ c.toNat < 0x7f := by
    simpa [Escape.printable] using printable
  have ne : c.toNat ≠ ' '.toNat := fun same => space (Char.toNat_inj.mp same)
  change c.toNat ≠ 0x20 at ne
  simp only [isPlain, Bool.and_eq_true, decide_eq_true_eq]
  omega

theorem isPlain_of_fragment {c : Char} (h : fragment c = true) : isPlain c = true := by
  refine isPlain_of_printable (Bool.and_eq_true_iff.mp h).1 ?_
  rintro rfl
  exact absurd h (by decide)

theorem isPlain_of_path {c : Char} (h : path c = true) : isPlain c = true :=
  isPlain_of_fragment (Bool.and_eq_true_iff.mp h).1

theorem isPlain_of_userInfo {c : Char} (h : userInfo c = true) : isPlain c = true :=
  isPlain_of_path (Bool.and_eq_true_iff.mp h).1

theorem isPlain_of_query {special : Bool} {c : Char} (h : query special c = true) :
    isPlain c = true := by
  refine isPlain_of_printable (Bool.and_eq_true_iff.mp (Bool.and_eq_true_iff.mp h).1).1 ?_
  rintro rfl
  cases special <;> exact absurd h (by decide)

end RegionApi.Url.Escape
