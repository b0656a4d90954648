import RegionApi.Binary64.Basic
import RegionApi.Text.Digits

/-!
# The shortest decimal form

Of all decimals that are read back as a given number, the shortest is written, and of several that
short the one nearest to the number. Candidates are the two neighbours of the number among the
decimals of one digit, of two digits, and so on; seventeen digits always suffice.
-/

namespace RegionApi.Binary64

/-- A decimal `digits * 10 ^ exponent`. -/
structure Decimal where
  digits : Nat
  exponent : Int
deriving DecidableEq

namespace Decimal

/-- The numerator of a decimal as a fraction. -/
def numerator (d : Decimal) : Nat := d.digits * powerNumerator 10 d.exponent

/-- The denominator of a decimal as a fraction. -/
def denominator (d : Decimal) : Nat := powerDenominator 10 d.exponent

/-- The number nearest to a decimal with a sign. -/
def read? (negative : Bool) (d : Decimal) : Option Binary64 :=
  ofRatio? negative d.numerator d.denominator

/-- How many zeros stand at the end of a list of digits. -/
def zerosAtEnd (ds : List Char) : Nat := (ds.reverse.takeWhile (· = '0')).length

/-- The same decimal without zeros at the end of its digits. -/
def trimmed (d : Decimal) : Decimal :=
  let n := zerosAtEnd (Text.decimal d.digits)
  ⟨d.digits / Nat.pow 10 n, d.exponent + n⟩

end Decimal

/-- The exponent `k` for which a positive fraction is at least `10 ^ k` and below `10 ^ (k + 1)`. -/
def decimalExponent (num den : Nat) : Int :=
  if den ≤ num then (Text.decimal (num / den)).length - 1
  else -(Text.decimal ((den - 1) / num)).length

/-- The greatest decimal of `n` digits that is not above a positive number, and the next one. -/
def neighbours (x : Binary64) (n : Nat) : Decimal × Decimal :=
  let p := decimalExponent x.numerator x.denominator - n + 1
  let below := x.numerator * powerDenominator 10 p / (x.denominator * powerNumerator 10 p)
  (⟨below, p⟩, ⟨below + 1, p⟩)

/-- Whether the lower of two neighbours is the nearer one; on a tie the even one is taken. -/
def prefersLower (x : Binary64) (lower : Decimal) : Bool :=
  let p := lower.exponent
  let den := x.denominator * powerNumerator 10 p
  let twice := 2 * (x.numerator * powerDenominator 10 p % den)
  twice < den || (twice = den && lower.digits % 2 = 0)

/-- The two neighbours of a number among the decimals of `n` digits, the nearer one first. -/
def candidates (x : Binary64) (n : Nat) : List Decimal :=
  let (lower, upper) := x.neighbours n
  if x.prefersLower lower then [lower, upper] else [upper, lower]

/-- The decimal of `n` digits that is read back as a number, if there is one. -/
def decimalOf? (x : Binary64) (n : Nat) : Option Decimal :=
  (x.candidates n).find? fun d => d.read? x.negative = some x

/-- The shortest decimal for a number. -/
def shortest (x : Binary64) : Decimal :=
  if x.isZero then ⟨0, 0⟩
  else (((List.range 17).findSome? fun n => x.decimalOf? (n + 1)).getD (x.neighbours 17).1).trimmed

end RegionApi.Binary64
