import RegionApi.Json.Basic
import RegionApi.Error
import RegionApi.Text.Quoted

/-!
# What a value is at first sight

A reader that expects a certain kind of value decides by its shape: the whole of a scalar, but of an
array or an object no more than that it is one. A value that is read from a text and one that is
at hand are so judged alike.
-/

namespace RegionApi.Json

/-- A scalar, or the beginning of something with parts. -/
inductive Shape where
  | null
  | bool (b : Bool)
  | number (n : Number)
  | string (s : String)
  | sequence
  | map
deriving DecidableEq

/-- The shape of a value. -/
def shape : Json → Shape
  | null => .null
  | bool b => .bool b
  | number n => .number n
  | string s => .string s
  | array _ => .sequence
  | object _ => .map

/-- A text between grave accents. -/
def accented (cs : List Char) : String := String.ofList ('\x60' :: cs ++ ['\x60'])

/-- A shape as it is told when another one was expected. -/
def Shape.describe : Shape → String
  | null => "null"
  | bool b => "boolean " ++ accented (if b then ['t', 'r', 'u', 'e'] else ['f', 'a', 'l', 's', 'e'])
  | number (.integer i) => "integer " ++ accented i.chars
  | number (.float x) => "floating point " ++ accented (Number.floatChars x)
  | string s => "string " ++ Text.quoted s
  | sequence => "sequence"
  | map => "map"

/-- Why a value is not what its reader expects. -/
inductive Mismatch where
  /-- A value of another kind. -/
  | wrongType (found : Shape) (expected : String)
  /-- A value of the right kind that is out of bounds. -/
  | wrongValue (found : Shape) (expected : String)
  | wrongLength (found : Nat) (expected : String)
  | missingField (name : String)
  | repeatedField (name : String)
deriving DecidableEq

/-- The text of a mismatch. -/
def Mismatch.message : Mismatch → String
  | wrongType found expected => "invalid type: " ++ found.describe ++ ", expected " ++ expected
  | wrongValue found expected => "invalid value: " ++ found.describe ++ ", expected " ++ expected
  | wrongLength found expected =>
    "invalid length " ++ String.ofList (Text.decimal found) ++ ", expected " ++ expected
  | missingField name => "missing field " ++ accented name.toList
  | repeatedField name => "duplicate field " ++ accented name.toList

/-- A mismatch as an error of the library. -/
def Mismatch.toError (m : Mismatch) : Error := .decode m.message

namespace Shape

/-- The text of a string. -/
def text (expected : String) : Shape → Except Mismatch String
  | string s => .ok s
  | found => .error (.wrongType found expected)

/-- A truth value. -/
def truth : Shape → Except Mismatch Bool
  | bool b => .ok b
  | found => .error (.wrongType found "a boolean")

/-- An unsigned word. -/
def word : Shape → Except Mismatch UInt64
  | number (.integer i) =>
    match i.toUInt64? with
    | some n => .ok n
    | none => .error (.wrongValue (.number (.integer i)) "u64")
  | found => .error (.wrongType found "u64")

/-- Something that may be null instead. -/
def optional {α : Type} (read : Shape → Except Mismatch α) : Shape → Except Mismatch (Option α)
  | null => .ok none
  | found => (read found).map some

end Shape

end RegionApi.Json
