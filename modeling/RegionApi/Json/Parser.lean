import RegionApi.Json.Literal
import RegionApi.Json.Numeral

/-!
# Reading values

`head` reads what a value is at first sight, and all of it if it is a scalar; `value` reads the rest
of an array or an object too. How deep values may be nested is limited, so reading is recursion on
the depth that is left. `parse` reads a text that is one value and nothing else.
-/

namespace RegionApi.Json

/-- Reads a value at first sight. Spaces before it are skipped, and the bracket of an array or an
object is left standing. -/
def head : Reader Shape := fun s =>
  match skipSpaces s with
  | [] => .error (Fault.before .endInValue [])
  | b :: rest =>
    if b = Text.ascii '\x22' then (Literal.read rest).map fun (t, rest) => (.string t, rest)
    else if b = Text.ascii '-' then (Numeral.read true rest).map fun (n, rest) => (.number n, rest)
    else if isDigit b then (Numeral.read false (b :: rest)).map fun (n, rest) => (.number n, rest)
    else if b = Text.ascii 'n' then (word (Text.utf8 "ull") rest).map fun rest => (.null, rest)
    else if b = Text.ascii 't' then (word (Text.utf8 "rue") rest).map fun rest => (.bool true, rest)
    else if b = Text.ascii 'f' then
      (word (Text.utf8 "alse") rest).map fun rest => (.bool false, rest)
    else if b = Text.ascii '[' then .ok (.sequence, b :: rest)
    else if b = Text.ascii '\x7b' then .ok (.map, b :: rest)
    else .error (Fault.atNext .noValue (b :: rest))

/-! ## Arrays and objects -/

/-- Comes to the next item of an array, or to the closing bracket, which is left standing. Before
the first item there is no comma. -/
def nextItem (first : Bool) (s : Bytes) : Except Failure (Bool × Bytes) :=
  match skipSpaces s with
  | [] => .error (Fault.before .endInArray [])
  | b :: rest =>
    if b = Text.ascii ']' then .ok (false, b :: rest)
    else if first then .ok (true, b :: rest)
    else if b = Text.ascii ',' then
      match skipSpaces rest with
      | [] => .error (Fault.before .endInValue [])
      | c :: more =>
        if c = Text.ascii ']' then .error (Fault.atNext .trailingComma (c :: more))
        else .ok (true, c :: more)
    else .error (Fault.atNext .noCommaInArray (b :: rest))

/-- Comes behind the opening quote of the next name in an object, or to the closing bracket, which
is left standing. Before the first name there is no comma. -/
def nextName (first : Bool) (s : Bytes) : Except Failure (Bool × Bytes) :=
  match skipSpaces s with
  | [] => .error (Fault.before .endInObject [])
  | b :: rest =>
    if b = Text.ascii '\x7d' then .ok (false, b :: rest)
    else if first then
      if b = Text.ascii '\x22' then .ok (true, rest)
      else .error (Fault.atNext .keyNotString (b :: rest))
    else if b = Text.ascii ',' then
      match skipSpaces rest with
      | [] => .error (Fault.before .endInValue [])
      | c :: more =>
        if c = Text.ascii '\x22' then .ok (true, more)
        else if c = Text.ascii '\x7d' then .error (Fault.atNext .trailingComma (c :: more))
        else .error (Fault.atNext .keyNotString (c :: more))
    else .error (Fault.atNext .noCommaInObject (b :: rest))

/-- Comes behind the colon that follows a name. -/
def colon (s : Bytes) : Except Failure Bytes :=
  match skipSpaces s with
  | [] => .error (Fault.before .endInObject [])
  | b :: rest =>
    if b = Text.ascii ':' then .ok rest else .error (Fault.atNext .noColon (b :: rest))

/-- One more item of an array; the items so far stand in reverse. -/
def item (value : Reader Json) (sofar : List Json) : Reader (List Json ⊕ List Json) := fun s => do
  match ← nextItem sofar.isEmpty s with
  | (false, rest) => return (.inr sofar.reverse, rest.drop 1)
  | (true, rest) => (value rest).map fun (v, rest) => (.inl (v :: sofar), rest)

/-- One more member of an object; `none` stands for no member so far. -/
def member (value : Reader Json) (sofar : Option (List (String × Json))) :
    Reader (Option (List (String × Json)) ⊕ Option (List (String × Json))) := fun s => do
  match ← nextName sofar.isNone s with
  | (false, rest) => return (.inr sofar, rest.drop 1)
  | (true, rest) =>
    let (name, rest) ← Literal.read rest
    let (v, rest) ← value (← colon rest)
    return (.inl (some (insert name v (sofar.getD []))), rest)

/-- Reads what is left of a value behind its first sight. The values inside brackets are read by
`inner`; where there is none, brackets are too deep. -/
def remainder (inner : Option (Reader Json)) : Shape → Reader Json
  | .null, rest => .ok (.null, rest)
  | .bool b, rest => .ok (.bool b, rest)
  | .number n, rest => .ok (.number n, rest)
  | .string t, rest => .ok (.string t, rest)
  | .sequence, rest =>
    match inner with
    | none => .error (Fault.atNext .tooDeep rest)
    | some value =>
      (repeated (item value) [] (rest.drop 1)).map fun (vs, rest) => (.array vs, rest)
  | .map, rest =>
    match inner with
    | none => .error (Fault.atNext .tooDeep rest)
    | some value =>
      (repeated (member value) none (rest.drop 1)).map
        fun (ms, rest) => (.object (ms.getD []), rest)

/-- Reads a value in which brackets may be a number of levels deep. -/
def value : Nat → Reader Json
  | 0, s => do
    let (shape, rest) ← head s
    remainder none shape rest
  | depth + 1, s => do
    let (shape, rest) ← head s
    remainder (some (value depth)) shape rest

/-! ## Texts -/

/-- How many levels deep brackets may be. -/
def depthLimit : Nat := 127

/-- Whether nothing but spaces is left. -/
def atEnd (s : Bytes) : Except Failure Unit :=
  match skipSpaces s with
  | [] => .ok ()
  | b :: rest => .error (Fault.atNext .trailingText (b :: rest))

/-- The value that a text is. -/
def parse (text : Bytes) : Except Failure Json := do
  let (v, rest) ← value depthLimit text
  atEnd rest
  return v

/-- The value that a text is, or the error with which the library refuses it. -/
def decode (text : Bytes) : Except Error Json :=
  match parse text with
  | .ok v => .ok v
  | .error f => .error (f.toError text)

end RegionApi.Json
