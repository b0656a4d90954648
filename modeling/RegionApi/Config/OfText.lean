import RegionApi.Config.Draft
import RegionApi.Json.Skip

/-!
# Configurations from text

A configuration is read from JSON text without making a JSON value first: a value is judged as soon
as it has been read, so of several faults the first in the text is told. A fault of the whole, such
as a member that is missing, is told at the place behind the closing bracket.
-/

namespace RegionApi.Config

open Json (Failure Fault Reader)

/-- A mismatch at the beginning of a rest of the text. -/
def refuse (m : Json.Mismatch) (rest : Bytes) : Failure := Fault.before (.mismatch m) rest

/-- The rest behind a closing bracket, or behind spaces if there is none. -/
def behind (closing : UInt8) (s : Bytes) : Bytes :=
  let s := Json.skipSpaces s
  if s.head? = some closing then s.drop 1 else s

/-- Reads the value of a member into a draft. -/
def readValue (d : Draft) (f : Field) : Reader Draft := fun s => do
  let (v, rest) ← Json.head s
  match d.put f v with
  | .ok d => return (d, rest)
  | .error m => .error (refuse m rest)

/-- Reads one more member of an object; `none` is the draft before the first one. -/
def readMember (sofar : Option Draft) : Reader (Option Draft ⊕ Option Draft) := fun s => do
  match ← Json.nextName sofar.isNone s with
  | (false, rest) => return (.inr sofar, rest)
  | (true, rest) =>
    let d := sofar.getD .empty
    let (name, rest) ← Json.Literal.read rest
    match Field.ofName? name with
    | none => return (.inl (some d), ← Json.skip (← Json.colon rest))
    | some f =>
      if d.has f then
        .error (refuse (.repeatedField f.name) (behind (Text.ascii '\x7d') rest))
      else
        let (d, rest) ← readValue d f (← Json.colon rest)
        return (.inl (some d), rest)

/-- Reads a configuration behind an opening brace. -/
def readObject : Reader Config := fun s => do
  let (d, rest) ← Json.repeated readMember none s
  let rest := behind (Text.ascii '\x7d') rest
  match (d.getD .empty).finish with
  | .ok c => return (c, rest)
  | .error m => .error (refuse m rest)

/-- Reads the values of a list into a draft. -/
def readList (first : Bool) (d : Draft) : List Field → Reader Draft
  | [], s => .ok (d, s)
  | f :: fs, s => do
    match ← Json.nextItem first s with
    | (false, rest) =>
      match Draft.absent f with
      | some m => .error (refuse m (behind (Text.ascii ']') rest))
      | none => readList first d fs rest
    | (true, rest) =>
      let (d, rest) ← readValue d f rest
      readList false d fs rest

/-- Comes behind the closing bracket of a list that has to end. -/
def endList (s : Bytes) : Except Failure Bytes :=
  match Json.skipSpaces s with
  | [] => .error (Fault.before .endInArray [])
  | b :: rest =>
    if b = Text.ascii ']' then .ok rest
    else if b = Text.ascii ',' then
      let more := Json.skipSpaces rest
      .error (Fault.atNext
        (if more.head? = some (Text.ascii ']') then .trailingComma else .trailingText) more)
    else .error (Fault.atNext .trailingText (b :: rest))

/-- Reads a configuration behind an opening bracket. -/
def readArray : Reader Config := fun s => do
  let (d, rest) ← readList true .empty Field.all s
  match d.finish with
  | .ok c => return (c, ← endList rest)
  | .error m => .error (refuse m (behind (Text.ascii ']') rest))

/-- Reads a configuration. -/
def read : Reader Config := fun s => do
  let (v, rest) ← Json.head s
  match v with
  | .map => readObject (rest.drop 1)
  | .sequence => readArray (rest.drop 1)
  | _ => .error (refuse (.wrongType v Draft.expectation) rest)

/-- The configuration that a text is. -/
def parse (text : Bytes) : Except Failure Config := do
  let (c, rest) ← read text
  Json.atEnd rest
  return c

/-- The configuration that a text is, or the error with which the library refuses it. -/
def ofText (text : String) : Except Error Config :=
  match parse (Text.utf8 text) with
  | .ok c => .ok c
  | .error f => .error (f.toError (Text.utf8 text))

end RegionApi.Config
