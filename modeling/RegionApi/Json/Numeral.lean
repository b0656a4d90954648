import RegionApi.Json.Scan

/-!
# Numerals

A numeral is a whole number, perhaps a fraction behind a point, and perhaps an exponent. Its digits
make one whole number as long as that fits into 64 bits; digits beyond only count as places.
-/

namespace RegionApi.Json.Numeral

/-- What the digits of a numeral have to stay below. -/
def wordLimit : Nat := 0x10000000000000000

/-- What the digits of an exponent have to stay below. -/
def exponentLimit : Nat := 0x80000000

/-- Takes digits into a number while it stays below a limit; returns it with the digits left. -/
def gather (limit : Nat) : Nat → Bytes → Nat × Bytes
  | n, [] => (n, [])
  | n, d :: ds =>
    if 10 * n + digitValue d < limit then gather limit (10 * n + digitValue d) ds else (n, d :: ds)

/-- The number that digits spell. -/
def value (ds : Bytes) : Nat := ds.foldl (fun n d => 10 * n + digitValue d) 0

/-- What a numeral says so far: a whole number, and by which power of ten to multiply it. -/
structure Scaled where
  digits : Nat
  power : Int

/-- The digits of a whole number, of which only zero begins with a zero. -/
def whole : Reader Bytes
  | [] => .error (Fault.before .endInValue [])
  | d :: s =>
    if !isDigit d then .error (Fault.before .badNumber s)
    else if d = Text.ascii '0' && (s.head?.any isDigit) then .error (Fault.atNext .badNumber s)
    else .ok ((d :: s).takeWhile isDigit, (d :: s).dropWhile isDigit)

/-- The fraction behind a point, which needs a digit. -/
def fraction (n : Scaled) (s : Bytes) : Except Failure (Scaled × Bytes) :=
  let ds := s.takeWhile isDigit
  let rest := s.dropWhile isDigit
  if ds = [] then
    .error (Fault.atNext (if rest = [] then .endInValue else .badNumber) rest)
  else
    let (digits, unused) := gather wordLimit n.digits ds
    .ok (⟨digits, n.power - (ds.length - unused.length)⟩, rest)

/-- The digits of an exponent of a known sign. An exponent that is no number of 32 bits is refused at
once if it makes the numeral too great. -/
def unsignedExponent (n : Scaled) (negative : Bool) : Bytes → Except Failure (Scaled × Bytes)
  | [] => .error (Fault.before .endInValue [])
  | d :: s =>
    if !isDigit d then .error (Fault.before .badNumber s)
    else
      let ds := (d :: s).takeWhile isDigit
      let rest := (d :: s).dropWhile isDigit
      match (gather exponentLimit 0 ds).2 with
      | _ :: unread =>
        if n.digits ≠ 0 ∧ !negative then .error (Fault.before .rangeExceeded (unread ++ rest))
        else .ok (⟨n.digits, n.power - value ds⟩, rest)
      | [] => .ok (⟨n.digits, if negative then n.power - value ds else n.power + value ds⟩, rest)

/-- The exponent behind its mark, with or without a sign. -/
def exponent (n : Scaled) (s : Bytes) : Except Failure (Scaled × Bytes) :=
  if s.head? = some (Text.ascii '-') then unsignedExponent n true (s.drop 1)
  else if s.head? = some (Text.ascii '+') then unsignedExponent n false (s.drop 1)
  else unsignedExponent n false s

/-- Whether a text goes on with the mark of an exponent. -/
def isExponent (s : Bytes) : Bool :=
  s.head? = some (Text.ascii 'e') || s.head? = some (Text.ascii 'E')

/-- The exponent of a numeral, if it has one. -/
def exponentIfAny (n : Scaled) (s : Bytes) : Except Failure (Scaled × Bytes) :=
  if isExponent s then exponent n (s.drop 1) else .ok (n, s)

/-- The finite number nearest to a numeral. -/
def float (negative : Bool) (n : Scaled) (rest : Bytes) : Except Failure (Number × Bytes) :=
  match Number.ofScientific? negative n.digits n.power with
  | some x => .ok (.float x, rest)
  | none => .error (Fault.before .rangeExceeded rest)

/-- A numeral behind its sign. A whole number is an integer if it fits; one with a point or an
exponent never is. -/
def read (negative : Bool) (s : Bytes) : Except Failure (Number × Bytes) := do
  let (ds, rest) ← whole s
  let (digits, unused) := gather wordLimit 0 ds
  let n : Scaled := ⟨digits, unused.length⟩
  if rest.head? = some (Text.ascii '.') then
    let (n, rest) ← fraction n (rest.drop 1)
    let (n, rest) ← exponentIfAny n rest
    float negative n rest
  else if isExponent rest then
    let (n, rest) ← exponent n (rest.drop 1)
    float negative n rest
  else if unused = [] then
    match Number.ofInteger? negative digits with
    | some x => .ok (x, rest)
    | none => .error (Fault.before .rangeExceeded rest)
  else
    float negative n rest

end RegionApi.Json.Numeral
