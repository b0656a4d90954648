import Mathlib.Logic.Function.Defs
import RegionApi.Text.Digits

/-!
# Numbers are read back from their digits

`readDigits?_toDigits`: in every base up to sixteen the digits of a number are read back as that
number, letters in lower case among them. So a number is told by its digits (`decimal_injective`),
and they hold no character that is used to separate numbers (`exists_of_mem_toDigits`).
-/

namespace RegionApi.Text

/-! ## Single digits -/

theorem hexValue?_digitChar : ∀ n < 16, hexValue? n.digitChar = some n := by decide

section Base

variable {base : Nat} (lower : 1 < base) (upper : base ≤ 16)
include lower

/-- What a number is written with. -/
theorem exists_of_mem_toDigits {n : Nat} {c : Char} (h : c ∈ Nat.toDigits base n) :
    ∃ d < base, c = d.digitChar := by
  induction n using Nat.strongRecOn with
  | ind n ih =>
      rw [Nat.toDigits_eq_if lower] at h
      split at h
      · rename_i small
        exact ⟨n, small, List.mem_singleton.mp h⟩
      · rename_i great
        rcases List.mem_append.mp h with h | h
        · exact ih (n / base) (Nat.div_lt_self (by omega) lower) h
        · exact ⟨n % base, Nat.mod_lt n (by omega), List.mem_singleton.mp h⟩

include upper

/-- Every number is read back from its digits. -/
theorem readDigits?_toDigits (n : Nat) : readDigits? base (Nat.toDigits base n) = some n := by
  induction n using Nat.strongRecOn with
  | ind n ih =>
      rw [Nat.toDigits_eq_if lower]
      split
      · rename_i small
        simp [readDigits?, hexValue?_digitChar n (by omega), small]
      · rename_i great
        have initial := ih (n / base) (Nat.div_lt_self (by omega) lower)
        have last : n % base < base := Nat.mod_lt n (by omega)
        rw [readDigits?] at initial ⊢
        rw [List.foldlM_append, initial]
        simp [hexValue?_digitChar (n % base) (by omega), last, Nat.div_add_mod]

end Base

/-- A number is below what its digits can count. -/
theorem lt_pow_of_readDigits? {base n : Nat} {cs : List Char} (h : readDigits? base cs = some n) :
    n < Nat.pow base cs.length := by
  -- The digits may stand behind others.
  have behind (start : Nat) (cs : List Char)
      (h : cs.foldlM (fun n c => do
        let d ← hexValue? c
        if d < base then some (base * n + d) else none) start = some n) :
      n < (start + 1) * Nat.pow base cs.length := by
    induction cs generalizing start with
    | nil =>
        cases h
        exact Nat.lt_of_lt_of_eq (Nat.lt_succ_self _) (Nat.mul_one _).symm
    | cons c cs ih =>
        obtain ⟨m, first, others⟩ := Option.bind_eq_some_iff.mp h
        obtain ⟨d, -, digit⟩ := Option.bind_eq_some_iff.mp first
        split at digit
        · rename_i small
          have next : base * start + d = m := Option.some.inj digit
          calc n < (m + 1) * Nat.pow base cs.length := ih m others
            _ ≤ (start + 1) * base * Nat.pow base cs.length := by
                refine Nat.mul_le_mul_right _ ?_
                rw [← next, Nat.add_mul, Nat.mul_comm start base]
                omega
            _ = (start + 1) * Nat.pow base (c :: cs).length := by
                rw [Nat.mul_assoc, Nat.mul_comm base]
                rfl
        · cases digit
  exact Nat.lt_of_lt_of_eq (behind 0 cs h) (Nat.one_mul _)

/-! ## Decimal and hexadecimal texts -/

theorem readDigits?_decimal (n : Nat) : readDigits? 10 (decimal n) = some n :=
  readDigits?_toDigits (by decide) (by decide) n

theorem readDigits?_hexadecimal (n : Nat) : readDigits? 16 (hexadecimal n) = some n :=
  readDigits?_toDigits (by decide) (by decide) n

/-- Different numbers have different texts. -/
theorem decimal_injective : Function.Injective decimal := by
  intro m n h
  refine Option.some.inj ?_
  calc some m = readDigits? 10 (decimal m) := (readDigits?_decimal m).symm
    _ = readDigits? 10 (decimal n) := by rw [h]
    _ = some n := readDigits?_decimal n

theorem decimal_ne_nil (n : Nat) : decimal n ≠ [] := Nat.toDigits_ne_nil

theorem hexadecimal_ne_nil (n : Nat) : hexadecimal n ≠ [] := Nat.toDigits_ne_nil

theorem isDigit_of_mem_decimal {n : Nat} {c : Char} (h : c ∈ decimal n) : c.isDigit = true :=
  Nat.isDigit_of_mem_toDigits (by decide) (by decide) h

/-- A hexadecimal digit is no character that stands between numbers. -/
theorem ne_of_mem_hexadecimal {n : Nat} {x : Char} (other : ∀ d < 16, d.digitChar ≠ x) :
    x ∉ hexadecimal n := by
  intro hx
  obtain ⟨d, small, rfl⟩ := exists_of_mem_toDigits (by decide) hx
  exact other d small rfl

end RegionApi.Text
