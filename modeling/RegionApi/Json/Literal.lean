import RegionApi.Json.Scan

/-!
# Strings

A string is read as the bytes it spells, from behind its opening quote to its closing one, and these
bytes have to be UTF-8. An escape of four digits is a UTF-16 unit; units that are surrogates have to
come in pairs.
-/

namespace RegionApi.Json.Literal

/-- What the escape of one letter stands for. -/
def shortEscape? (b : UInt8) : Option UInt8 :=
  if b = Text.ascii '\x22' then some b
  else if b = Text.ascii '\\' then some b
  else if b = Text.ascii '/' then some b
  else if b = Text.ascii 'b' then some 8
  else if b = Text.ascii 'f' then some 12
  else if b = Text.ascii 'n' then some 10
  else if b = Text.ascii 'r' then some 13
  else if b = Text.ascii 't' then some 9
  else none

/-- The unit that four hexadecimal digits spell. -/
def unit : Reader Nat
  | a :: b :: c :: d :: s =>
    match Text.readDigits? 16 ([a, b, c, d].map fun x => Char.ofNat x.toNat) with
    | some n => .ok (n, s)
    | none => .error (Fault.before .badEscape s)
  | _ => .error (Fault.before .endInString [])

/-- Whether a unit is the first of a pair. -/
def isLeading (n : Nat) : Bool := 0xD800 ≤ n && n < 0xDC00

/-- Whether a unit is the second of a pair. -/
def isTrailing (n : Nat) : Bool := 0xDC00 ≤ n && n < 0xE000

/-- The character that a pair of units stands for. -/
def paired (leading trailing : Nat) : Char :=
  Char.ofNat (0x10000 + (leading - 0xD800) * 0x400 + (trailing - 0xDC00))

/-- A byte that has to stand behind the first unit of a pair. -/
def expected (b : UInt8) : Bytes → Except Failure Bytes
  | [] => .error (Fault.before .endInString [])
  | c :: s => if c = b then .ok s else .error (Fault.before .cutSurrogate s)

/-- The character of an escape in units, from behind its letter. -/
def character : Reader Char := fun s => do
  let (n, s) ← unit s
  if isTrailing n then .error (Fault.before .loneSurrogate s)
  else if isLeading n then
    let s ← expected (Text.ascii '\\') s
    let s ← expected (Text.ascii 'u') s
    let (m, s) ← unit s
    if isTrailing m then .ok (paired n m, s) else .error (Fault.before .loneSurrogate s)
  else .ok (Char.ofNat n, s)

/-- The bytes of an escape, from behind its backslash. -/
def escape : Reader Bytes
  | [] => .error (Fault.before .endInString [])
  | b :: s =>
    match shortEscape? b with
    | some c => .ok ([c], s)
    | none =>
      if b = Text.ascii 'u' then (character s).map fun (c, s) => (String.utf8EncodeChar c, s)
      else .error (Fault.before .badEscape s)

/-- One more piece of a string, whose bytes so far stand in reverse; the closing quote ends it. -/
def piece (sofar : Bytes) : Reader (Bytes ⊕ Bytes)
  | [] => .error (Fault.before .endInString [])
  | b :: s =>
    if b = Text.ascii '\x22' then .ok (.inr sofar, s)
    else if b = Text.ascii '\\' then
      (escape s).map fun (bytes, s) => (.inl (bytes.reverse ++ sofar), s)
    else if b < 0x20 then .error (Fault.before .controlCharacter s)
    else .ok (.inl (b :: sofar), s)

/-- A string, from behind its opening quote. -/
def read : Reader String := fun s => do
  let (bytes, rest) ← repeated piece [] s
  match Text.ofUtf8? bytes.reverse with
  | some text => .ok (text, rest)
  | none => .error (Fault.before .badCodePoint rest)

end RegionApi.Json.Literal
