import RegionApi.Json.Parser

/-!
# Passing over values

A reader passes over the members that it does not know. It only checks how they are written, with
the open brackets on a stack, so they may be nested to any depth, strings may be of any bytes and
numbers of any size.
-/

namespace RegionApi.Json

/-- A bracket that has been opened. -/
inductive Bracket where
  | array
  | object
deriving DecidableEq

namespace Bracket

/-- The byte that closes a bracket. -/
def closing : Bracket → UInt8
  | array => Text.ascii ']'
  | object => Text.ascii '\x7d'

/-- What is wrong when the text ends within a bracket. -/
def atEnd : Bracket → Fault
  | array => .endInArray
  | object => .endInObject

/-- What is wrong when neither a comma nor the closing bracket follows. -/
def noComma : Bracket → Fault
  | array => .noCommaInArray
  | object => .noCommaInObject

end Bracket

namespace Skip

/-! ## Scalars -/

/-- Passes over the escape behind a backslash. -/
def escape (s : Bytes) : Except Failure Bytes :=
  match s with
  | [] => .error (Fault.before .endInString [])
  | b :: rest =>
    if (Literal.shortEscape? b).isSome then .ok rest
    else if b = Text.ascii 'u' then (Literal.unit rest).map (·.2)
    else .error (Fault.before .badEscape rest)

/-- Passes over a piece of a string. -/
def piece (_ : Unit) : Reader (Unit ⊕ Unit)
  | [] => .error (Fault.before .endInString [])
  | b :: s =>
    if b = Text.ascii '\x22' then .ok (.inr (), s)
    else if b = Text.ascii '\\' then (escape s).map fun rest => (.inl (), rest)
    else if b < 0x20 then .error (Fault.before .controlCharacter (b :: s))
    else .ok (.inl (), s)

/-- Passes over a string, from behind its opening quote. -/
def string (s : Bytes) : Except Failure Bytes := (repeated piece () s).map (·.2)

/-- Passes over the digits of a whole number. -/
def whole (s : Bytes) : Except Failure Bytes :=
  match s with
  | [] => .error (Fault.before .badNumber [])
  | d :: rest =>
    if !isDigit d then .error (Fault.before .badNumber rest)
    else if d = Text.ascii '0' then
      if rest.head?.any isDigit then .error (Fault.atNext .badNumber rest) else .ok rest
    else .ok (rest.dropWhile isDigit)

/-- Passes over an exponent, from behind its mark. -/
def exponent (s : Bytes) : Except Failure Bytes :=
  let signed := s.head? = some (Text.ascii '-') || s.head? = some (Text.ascii '+')
  match if signed then s.drop 1 else s with
  | [] => .error (Fault.before .badNumber [])
  | d :: rest =>
    if isDigit d then .ok (rest.dropWhile isDigit) else .error (Fault.before .badNumber rest)

/-- Passes over an exponent, if there is one. -/
def exponentIfAny (s : Bytes) : Except Failure Bytes :=
  if Numeral.isExponent s then exponent (s.drop 1) else .ok s

/-- Passes over a numeral, from behind its sign. -/
def numeral (s : Bytes) : Except Failure Bytes := do
  let rest ← whole s
  if rest.head? = some (Text.ascii '.') then
    let fraction := rest.drop 1
    if fraction.head?.any isDigit then exponentIfAny (fraction.dropWhile isDigit)
    else .error (Fault.atNext .badNumber fraction)
  else exponentIfAny rest

/-! ## Values -/

/-- Passes over a scalar, or over the bracket that begins a value. -/
def head (s : Bytes) : Except Failure (Option Bracket × Bytes) :=
  match skipSpaces s with
  | [] => .error (Fault.before .endInValue [])
  | b :: rest =>
    let scalar (passed : Except Failure Bytes) : Except Failure (Option Bracket × Bytes) :=
      passed.map fun rest => (none, rest)
    if b = Text.ascii '\x22' then scalar (string rest)
    else if b = Text.ascii '-' then scalar (numeral rest)
    else if isDigit b then scalar (numeral (b :: rest))
    else if b = Text.ascii 'n' then scalar (word (Text.utf8 "ull") rest)
    else if b = Text.ascii 't' then scalar (word (Text.utf8 "rue") rest)
    else if b = Text.ascii 'f' then scalar (word (Text.utf8 "alse") rest)
    else if b = Text.ascii '[' then .ok (some .array, rest)
    else if b = Text.ascii '\x7b' then .ok (some .object, rest)
    else .error (Fault.atNext .noValue (b :: rest))

/-- Closes brackets as long as they are closed. What is left on the stack is open, and a further
value follows; right behind an opening bracket no comma comes before it. -/
def unwind (behindValue : Bool) : List Bracket → Reader (List Bracket)
  | [], s => .ok ([], s)
  | top :: outer, s =>
    match skipSpaces s with
    | [] => .error (Fault.before top.atEnd [])
    | b :: rest =>
      if behindValue && b = Text.ascii ',' then .ok (top :: outer, rest)
      else if b = top.closing then unwind true outer rest
      else if behindValue then .error (Fault.atNext top.noComma (b :: rest))
      else .ok (top :: outer, b :: rest)

/-- Passes over a name and the colon behind it. -/
def name (s : Bytes) : Except Failure Bytes :=
  match skipSpaces s with
  | [] => .error (Fault.before .endInObject [])
  | b :: rest =>
    if b = Text.ascii '\x22' then do colon (← string rest)
    else .error (Fault.atNext .keyNotString (b :: rest))

/-- Passes over the head of a value and what follows it up to the next value. -/
def step (stack : List Bracket) : Reader (List Bracket ⊕ List Bracket) := fun s => do
  let (opened, rest) ← head s
  let (stack, rest) ← unwind opened.isNone (opened.toList ++ stack) rest
  match stack with
  | [] => return (.inr [], rest)
  | .array :: _ => return (.inl stack, rest)
  | .object :: _ => return (.inl stack, ← name rest)

end Skip

/-- Passes over a value. -/
def skip (s : Bytes) : Except Failure Bytes := (repeated Skip.step [] s).map (·.2)

end RegionApi.Json
