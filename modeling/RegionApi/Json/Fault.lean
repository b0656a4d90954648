import RegionApi.Json.Shape

/-!
# Why a text is no JSON

A fault is found at a place of the text, told as a line and a column in bytes. While it reads, a
reader knows only how many bytes are left, so a failure keeps this number, and `Place.ofLeft` turns
it into a place once the whole text is at hand.
-/

namespace RegionApi.Json

/-- What can be wrong with a text. -/
inductive Fault where
  | endInArray
  | endInObject
  | endInString
  | endInValue
  | noColon
  | noCommaInArray
  | noCommaInObject
  | noWord
  | noValue
  | badEscape
  | badNumber
  | rangeExceeded
  | badCodePoint
  | controlCharacter
  | keyNotString
  | loneSurrogate
  | cutSurrogate
  | trailingComma
  | trailingText
  | tooDeep
  /-- The text is JSON as far as it has been read, and not what its reader expects. -/
  | mismatch (m : Mismatch)
deriving DecidableEq

/-- The text of a fault. -/
def Fault.message : Fault → String
  | endInArray => "EOF while parsing a list"
  | endInObject => "EOF while parsing an object"
  | endInString => "EOF while parsing a string"
  | endInValue => "EOF while parsing a value"
  | noColon => "expected \x60:\x60"
  | noCommaInArray => "expected \x60,\x60 or \x60]\x60"
  | noCommaInObject => "expected \x60,\x60 or \x60\x7d\x60"
  | noWord => "expected ident"
  | noValue => "expected value"
  | badEscape => "invalid escape"
  | badNumber => "invalid number"
  | rangeExceeded => "number out of range"
  | badCodePoint => "invalid unicode code point"
  | controlCharacter => "control character (\\u0000-\\u001F) found while parsing a string"
  | keyNotString => "key must be a string"
  | loneSurrogate => "lone leading surrogate in hex escape"
  | cutSurrogate => "unexpected end of hex escape"
  | trailingComma => "trailing comma"
  | trailingText => "trailing characters"
  | tooDeep => "recursion limit exceeded"
  | mismatch m => m.message

/-- A fault, and how many bytes are left behind its place. -/
structure Failure where
  fault : Fault
  left : Nat
deriving DecidableEq

namespace Fault

/-- A fault where a rest of the text begins. -/
def before (f : Fault) (rest : Bytes) : Failure := ⟨f, rest.length⟩

/-- A fault at the next byte of a rest, or at its end if there is none. -/
def atNext (f : Fault) (rest : Bytes) : Failure := ⟨f, rest.length - 1⟩

end Fault

/-- A place in a text: a line, counted from one, and how many bytes of it come before. -/
structure Place where
  line : Nat
  column : Nat
deriving DecidableEq

/-- The line break. -/
def lineBreak : UInt8 := 10

/-- The place at the end of a text. -/
def Place.after (text : Bytes) : Place :=
  ⟨text.count lineBreak + 1, (text.reverse.takeWhile (· ≠ lineBreak)).length⟩

/-- The place in a text behind which some bytes are left. -/
def Place.ofLeft (text : Bytes) (left : Nat) : Place := .after (text.take (text.length - left))

/-- A fault together with its place in a text. -/
def Failure.message (text : Bytes) (f : Failure) : String :=
  let place := Place.ofLeft text f.left
  f.fault.message ++ String.ofList (" at line ".toList ++ Text.decimal place.line ++
    " column ".toList ++ Text.decimal place.column)

/-- A failure as an error of the library. -/
def Failure.toError (text : Bytes) (f : Failure) : Error := .decode (f.message text)

end RegionApi.Json
