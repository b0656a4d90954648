/-!
# Text as bytes

What travels over a connection is bytes; what callers hold is text. `utf8` and `ofUtf8?` go between
the two, and `ofUtf8?_utf8` says that no text is lost on the way.
-/

namespace RegionApi

/-- A sequence of octets, such as the body of a message. -/
abbrev Bytes := List UInt8

namespace Text

/-- The UTF-8 form of a list of characters. -/
def utf8Chars (cs : List Char) : Bytes := cs.flatMap String.utf8EncodeChar

/-- The UTF-8 form of a text. -/
def utf8 (s : String) : Bytes := utf8Chars s.toList

/-- The text that some bytes spell in UTF-8, if they spell one. -/
def ofUtf8? (bytes : Bytes) : Option String := String.fromUTF8? bytes.toByteArray

/-- The byte of a character of ASCII. -/
def ascii (c : Char) : UInt8 := UInt8.ofNat c.toNat

/-- What holds of all characters up to some number, tried one by one, holds of each of them. -/
@[elab_as_elim]
theorem of_toNat_lt {motive : Char → Prop} {bound : Nat} {c : Char} (small : c.toNat < bound)
    (each : ∀ n < bound, motive (Char.ofNat n)) : motive c := by
  have this := each c.toNat small
  rwa [Char.ofNat_toNat] at this

@[simp] theorem utf8Chars_nil : utf8Chars [] = [] := rfl

@[simp] theorem utf8Chars_cons (c : Char) (cs : List Char) :
    utf8Chars (c :: cs) = String.utf8EncodeChar c ++ utf8Chars cs := rfl

@[simp] theorem utf8Chars_append (cs ds : List Char) :
    utf8Chars (cs ++ ds) = utf8Chars cs ++ utf8Chars ds := by
  simp [utf8Chars]

/-- Bytes written as UTF-8 are read back as the text they came from. -/
@[simp] theorem ofUtf8?_utf8 (s : String) : ofUtf8? (utf8 s) = some s := by
  have valid : (utf8 s).toByteArray.IsValidUTF8 := ⟨s.toList, rfl⟩
  have encoded : (utf8 s).toByteArray = s.toByteArray := by
    have h : s = String.ofList s.toList := String.ofList_toList.symm
    calc (utf8 s).toByteArray = (String.ofList s.toList).toByteArray := rfl
      _ = s.toByteArray := by rw [← h]
  unfold ofUtf8? String.fromUTF8?
  rw [dif_pos valid]
  exact congrArg some (String.toByteArray_inj.mp encoded)

end Text

end RegionApi
