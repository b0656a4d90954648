import RegionApi.Text.Bytes
import RegionApi.Text.Digits

/-!
# Percent-encoding

A character that a place reserves is written as its UTF-8 bytes, each a percent sign and two
upper-case hexadecimal digits. What is reserved differs from place to place, so the writer takes
the set of characters that stand for themselves.
-/

namespace RegionApi.Text.Percent

/-- A byte behind a percent sign. -/
def escape (b : UInt8) : List Char :=
  ['%', hexDigit (b.toNat / 16), hexDigit (b.toNat % 16)]

/-- One character: itself if kept, its bytes escaped otherwise. -/
def encodeChar (keep : Char → Bool) (c : Char) : List Char :=
  if keep c then [c] else (String.utf8EncodeChar c).flatMap escape

/-- A list of characters with every one that is not kept escaped. -/
def encodeChars (keep : Char → Bool) (cs : List Char) : List Char :=
  cs.flatMap (encodeChar keep)

/-- A text with every character that is not kept escaped. -/
def encode (keep : Char → Bool) (s : String) : String :=
  String.ofList (encodeChars keep s.toList)

/-- The bytes a text stands for: an escape is one byte, any other character its UTF-8 form. A
percent sign that two digits do not follow stands for itself. -/
def decodeChars : List Char → Bytes
  | [] => []
  | '%' :: a :: b :: rest =>
    match hexValue? a, hexValue? b with
    | some x, some y => UInt8.ofNat (16 * x + y) :: decodeChars rest
    | _, _ => 37 :: decodeChars (a :: b :: rest)
  | c :: rest => String.utf8EncodeChar c ++ decodeChars rest

/-- The bytes a percent-encoded text stands for. -/
def decode (s : String) : Bytes := decodeChars s.toList

@[simp] theorem encodeChars_nil (keep : Char → Bool) : encodeChars keep [] = [] := rfl

@[simp] theorem encodeChars_cons (keep : Char → Bool) (c : Char) (cs : List Char) :
    encodeChars keep (c :: cs) = encodeChar keep c ++ encodeChars keep cs := rfl

/-- Text made of kept characters is written as it stands. -/
theorem encodeChars_of_kept {keep : Char → Bool} {cs : List Char}
    (h : ∀ c ∈ cs, keep c = true) : encodeChars keep cs = cs := by
  induction cs with
  | nil => rfl
  | cons c cs ih =>
      rw [encodeChars_cons, ih fun d hd => h d (List.mem_cons_of_mem _ hd)]
      simp [encodeChar, h c List.mem_cons_self]

end RegionApi.Text.Percent
