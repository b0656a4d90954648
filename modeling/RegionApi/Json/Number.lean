import RegionApi.Binary64.Shortest

/-!
# Numbers in JSON

A number is kept exactly if it is a whole number that fits into 64 bits, signed or unsigned, and as
the nearest finite number of 64 bits otherwise.
-/

namespace RegionApi.Json

/-- A whole number that fits into 64 bits, with a sign or without. -/
structure Integer where
  value : Int
  fits : -0x8000000000000000 ≤ value ∧ value < 0x10000000000000000 := by decide
deriving DecidableEq

namespace Integer

/-- A natural number that fits. -/
def ofNat? (n : Nat) : Option Integer :=
  if h : n < 0x10000000000000000 then some ⟨n, by omega⟩ else none

/-- The negative of a natural number, if it fits. -/
def ofNegated? (n : Nat) : Option Integer :=
  if h : n ≤ 0x8000000000000000 then some ⟨-n, by omega⟩ else none

/-- An unsigned word. -/
def ofUInt64 (n : UInt64) : Integer := ⟨n.toNat, by have := n.toNat_lt; omega⟩

/-- The unsigned word of a number that is not negative. -/
def toUInt64? (i : Integer) : Option UInt64 :=
  if 0 ≤ i.value then some (UInt64.ofNat i.value.toNat) else none

/-- The digits of an integer, behind a minus sign if it is negative. -/
def chars (i : Integer) : List Char :=
  if i.value < 0 then '-' :: Text.decimal (-i.value).toNat else Text.decimal i.value.toNat

@[simp] theorem value_ofUInt64 (n : UInt64) : (ofUInt64 n).value = n.toNat := rfl

@[simp] theorem toUInt64?_ofUInt64 (n : UInt64) : (ofUInt64 n).toUInt64? = some n := by
  simp [toUInt64?]

end Integer

/-- A number. -/
inductive Number where
  | integer (i : Integer)
  | float (x : Binary64)
deriving DecidableEq

namespace Number

/-! ## Text -/

/-- An exponent of ten with its sign. -/
def exponentChars (n : Int) : List Char :=
  'e' :: (if n < 0 then '-' else '+') :: Text.decimal n.natAbs

/-- A decimal in positional notation from `0.00001` up to sixteen digits before the point, always
with a digit behind the point, and with an exponent of ten beyond. -/
def decimalChars (d : Binary64.Decimal) : List Char :=
  let digits := Text.decimal d.digits
  let point : Int := digits.length + d.exponent
  if 0 ≤ d.exponent ∧ point ≤ 16 then
    digits ++ List.replicate d.exponent.toNat '0' ++ ['.', '0']
  else if 0 < point ∧ point ≤ 16 then
    digits.take point.toNat ++ '.' :: digits.drop point.toNat
  else if -5 < point ∧ point ≤ 0 then
    '0' :: '.' :: List.replicate (-point).toNat '0' ++ digits
  else
    match digits with
    | first :: second :: rest => first :: '.' :: second :: rest ++ exponentChars (point - 1)
    | _ => digits ++ exponentChars (point - 1)

/-- The text of a finite number. -/
def floatChars (x : Binary64) : List Char :=
  (if x.negative then ['-'] else []) ++ decimalChars x.shortest

/-- The text of a number. -/
def chars : Number → List Char
  | integer i => i.chars
  | float x => floatChars x

@[simp] theorem chars_integer (i : Integer) : (integer i).chars = i.chars := rfl

@[simp] theorem chars_float (x : Binary64) : (float x).chars = floatChars x := rfl

/-! ## From what is written -/

/-- The number nearest to a power of ten that a finite number can be near to. -/
def powerOfTen? (k : Nat) : Option Binary64 := Binary64.ofNat? false (Nat.pow 10 k)

/-- A number divided by a power of ten. Powers beyond `10 ^ 308` are taken in two steps, and beyond
`10 ^ 616` nothing is left of a number below `2 ^ 64`. -/
def dividedByPower? (x : Binary64) (k : Nat) : Option Binary64 :=
  if k ≤ 308 then do x.div? (← powerOfTen? k)
  else if k ≤ 616 then do (← x.div? (← powerOfTen? 308)).div? (← powerOfTen? (k - 308))
  else some (.zero x.negative)

/-- A whole number times a power of ten as a finite number: the whole number is rounded, the power
is rounded, and so is their product or quotient. -/
def ofScientific? (negative : Bool) (n : Nat) (exponent : Int) : Option Binary64 := do
  let x ← Binary64.ofNat? negative n
  if exponent < 0 then dividedByPower? x exponent.natAbs
  else if n = 0 then some x
  else if 308 < exponent then none
  else x.mul? (← powerOfTen? exponent.toNat)

/-- A whole number written without point and exponent. A minus sign before zero is kept, so this
zero is no integer, and neither is what does not fit into 64 bits. -/
def ofInteger? (negative : Bool) (n : Nat) : Option Number :=
  let exact := if negative then (if n = 0 then none else Integer.ofNegated? n) else Integer.ofNat? n
  match exact with
  | some i => some (.integer i)
  | none => (Binary64.ofNat? negative n).map .float

end Number

end RegionApi.Json
