import RegionApi.Form
import RegionApi.Text.Percent

/-!
# The written form of a form

`application/x-www-form-urlencoded`: pairs joined by ampersands, name and value by an equals sign, a
space as a plus sign, and every character but letters, digits and `*-._` percent-encoded. `decode?`
reads it back.
-/

namespace RegionApi.Form

/-- The content type of a written form. -/
def contentType : String := "application/x-www-form-urlencoded"

/-- The characters that stand for themselves. -/
def kept (c : Char) : Bool := c.isAlphanum || c = '*' || c = '-' || c = '.' || c = '_'

/-- One character of a name or value. -/
def encodeChar (c : Char) : List Char := if c = ' ' then ['+'] else Text.Percent.encodeChar kept c

/-- A name or a value. -/
def encodePart (s : String) : List Char := s.toList.flatMap encodeChar

/-- A name and its value. -/
def encodePair (p : String × String) : List Char := encodePart p.1 ++ '=' :: encodePart p.2

/-- A list of pairs. -/
def encodePairs (ps : List (String × String)) : List Char :=
  List.intercalate ['&'] (ps.map encodePair)

/-- The written form. -/
def encode (f : Form) : String := String.ofList (encodePairs f.pairs)

/-! ## Reading back -/

/-- A name or a value read back: plus signs are spaces, escapes are bytes, and the bytes have to be
UTF-8. -/
def decodePart? (cs : List Char) : Option String :=
  Text.ofUtf8? (Text.Percent.decodeChars (cs.map fun c => if c = '+' then ' ' else c))

/-- A pair read back, split at its first equals sign; without one it is a name with an empty
value. -/
def decodePair? (cs : List Char) : Option (String × String) := do
  let name ← decodePart? (cs.takeWhile (· ≠ '='))
  let value ← decodePart? ((cs.dropWhile (· ≠ '=')).drop 1)
  some (name, value)

/-- The pairs of a written form, in order; empty stretches between ampersands are skipped. -/
def decode? (s : String) : Option (List (String × String)) :=
  ((List.splitOn '&' s.toList).filter (· ≠ [])).mapM decodePair?

end RegionApi.Form
