/-!
# Finite numbers of 64 bits

A finite number of the binary interchange format is a sign, a whole number below `2 ^ 53` and an
exponent of two. Every operation computes exactly and then rounds once, to the nearest number and on
a tie to the even one; a result that is too great has no finite number and is `none`.
-/

namespace RegionApi

/-- Whether `m` and `e` are the fields of a finite number: exactly one pair for each magnitude. -/
def Binary64.IsNormal (m : Nat) (e : Int) : Prop :=
  m < 0x20000000000000 ∧ -1074 ≤ e ∧ e ≤ 971 ∧ (0x10000000000000 ≤ m ∨ e = -1074)

instance (m : Nat) (e : Int) : Decidable (Binary64.IsNormal m e) :=
  inferInstanceAs (Decidable (_ ∧ _ ∧ _ ∧ _))

/-- The number `± significand * 2 ^ exponent`. Zero keeps its sign. -/
structure Binary64 where
  negative : Bool
  significand : Nat
  exponent : Int
  normal : Binary64.IsNormal significand exponent
deriving DecidableEq

namespace Binary64

/-- Zero with a sign. -/
def zero (negative : Bool) : Binary64 := ⟨negative, 0, -1074, by decide⟩

/-- Whether a number is zero, of either sign. -/
def isZero (x : Binary64) : Bool := x.significand = 0

/-- The numerator of an integer power as a fraction. -/
def powerNumerator (base : Nat) (e : Int) : Nat := Nat.pow base e.toNat

/-- The denominator of an integer power as a fraction. -/
def powerDenominator (base : Nat) (e : Int) : Nat := Nat.pow base (-e).toNat

/-- The numerator of the magnitude as a fraction. -/
def numerator (x : Binary64) : Nat := x.significand * powerNumerator 2 x.exponent

/-- The denominator of the magnitude as a fraction, a power of two. -/
def denominator (x : Binary64) : Nat := powerDenominator 2 x.exponent

/-! ## Rounding -/

/-- The whole number nearest to a quotient, on a tie the even one. -/
def roundQuotient (num den : Nat) : Nat :=
  let q := num / den
  let twice := 2 * (num % den)
  if twice < den then q
  else if den < twice then q + 1
  else q + q % 2

/-- The exponent `k` for which a positive fraction is at least `2 ^ k` and below `2 ^ (k + 1)`. -/
def binaryExponent (num den : Nat) : Int :=
  let k : Int := Nat.log2 num - Nat.log2 den
  if num * powerDenominator 2 k < den * powerNumerator 2 k then k - 1 else k

/-- Significand and exponent of a positive fraction, rounded; a significand that rounding has made
too long by one bit is shortened. -/
def rounded (num den : Nat) : Nat × Int :=
  let e := max (-1074) (binaryExponent num den - 52)
  let m := roundQuotient (num * powerDenominator 2 e) (den * powerNumerator 2 e)
  if m = 0x20000000000000 then (0x10000000000000, e + 1) else (m, e)

/-- The number with the given fields, if they are those of a finite number. -/
def ofFields? (negative : Bool) (m : Nat) (e : Int) : Option Binary64 :=
  if h : IsNormal m e then some ⟨negative, m, e, h⟩ else none

/-- The number nearest to a fraction with a positive denominator, if it is not too great. -/
def ofRatio? (negative : Bool) (num den : Nat) : Option Binary64 :=
  if num = 0 then some (zero negative)
  else ofFields? negative (rounded num den).1 (rounded num den).2

/-- The number nearest to a natural number. -/
def ofNat? (negative : Bool) (n : Nat) : Option Binary64 := ofRatio? negative n 1

/-- The product. -/
def mul? (x y : Binary64) : Option Binary64 :=
  ofRatio? (x.negative != y.negative) (x.numerator * y.numerator) (x.denominator * y.denominator)

/-- The quotient by a number that is not zero. -/
def div? (x y : Binary64) : Option Binary64 :=
  ofRatio? (x.negative != y.negative) (x.numerator * y.denominator) (x.denominator * y.numerator)

@[simp] theorem significand_zero (b : Bool) : (zero b).significand = 0 := rfl

@[simp] theorem negative_zero (b : Bool) : (zero b).negative = b := rfl

@[simp] theorem ofRatio?_zero (b : Bool) (den : Nat) : ofRatio? b 0 den = some (zero b) := by
  simp [ofRatio?]

theorem negative_of_ofFields? {b : Bool} {m : Nat} {e : Int} {x : Binary64}
    (h : ofFields? b m e = some x) : x.negative = b := by
  unfold ofFields? at h
  split at h
  · exact Option.some.inj h ▸ rfl
  · cases h

/-- Rounding keeps the sign. -/
theorem negative_of_ofRatio? {b : Bool} {num den : Nat} {x : Binary64}
    (h : ofRatio? b num den = some x) : x.negative = b := by
  unfold ofRatio? at h
  split at h
  · exact Option.some.inj h ▸ rfl
  · exact negative_of_ofFields? h

end Binary64

end RegionApi
