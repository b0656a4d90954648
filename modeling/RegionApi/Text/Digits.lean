/-!
# Numbers in digits
-/

namespace RegionApi.Text

/-- The digit of a value below sixteen, letters in upper case. -/
def hexDigit (n : Nat) : Char :=
  if n < 10 then Char.ofNat (48 + n) else Char.ofNat (55 + n)

/-- The value of a hexadecimal digit, in either case. -/
def hexValue? (c : Char) : Option Nat :=
  if '0' ≤ c ∧ c ≤ '9' then some (c.toNat - 48)
  else if 'A' ≤ c ∧ c ≤ 'F' then some (c.toNat - 55)
  else if 'a' ≤ c ∧ c ≤ 'f' then some (c.toNat - 87)
  else none

theorem hexValue?_hexDigit : ∀ n < 16, hexValue? (hexDigit n) = some n := by decide

/-- The text of a natural number in base ten. -/
def decimal (n : Nat) : List Char := Nat.toDigits 10 n

/-- The text of a natural number in base sixteen, letters in lower case. -/
def hexadecimal (n : Nat) : List Char := Nat.toDigits 16 n

/-- The number that digits of a base up to sixteen spell; there may be no digit. -/
def readDigits? (base : Nat) (cs : List Char) : Option Nat :=
  cs.foldlM (fun n c => do
    let d ← hexValue? c
    if d < base then some (base * n + d) else none) 0

end RegionApi.Text
