import RegionApi.Json.Parser
import RegionApi.Proofs.Json.Literal
import RegionApi.Proofs.Json.Numeral

/-!
# Values at first sight

A scalar is read as a whole at first sight (`head_scalar`), and of an array or an object the bracket
that it begins with. Nothing else is read (`exists_of_head_eq_ok`).
-/

namespace RegionApi.Json

open Text (ascii)

/-! ## How values begin -/

/-- The bytes that values begin with. -/
def isOpening (b : UInt8) : Bool :=
  b = ascii '\x22' || b = ascii '-' || isDigit b || b = ascii 'n' || b = ascii 't' ||
    b = ascii 'f' || b = ascii '[' || b = ascii '\x7b'

theorem IsScalar.exists_opening {s : Bytes} {v : Json} (h : IsScalar s v) :
    ∃ b t, s = b :: t ∧ isOpening b = true := by
  cases h with
  | null => exact ⟨ascii 'n', Text.utf8 "ull", by decide, by decide⟩
  | yes => exact ⟨ascii 't', Text.utf8 "rue", by decide, by decide⟩
  | no => exact ⟨ascii 'f', Text.utf8 "alse", by decide, by decide⟩
  | string spelled =>
      obtain ⟨inner, rfl, -⟩ := spelled
      exact ⟨ascii '\x22', _, rfl, by decide⟩
  | @number _ p _ spelled =>
      obtain ⟨t, rfl, whole, f, e, rfl, -⟩ := spelled
      obtain ⟨d, ds, digits, digit⟩ := whole.digits.exists_cons
      cases p.negative with
      | true => exact ⟨ascii '-', _, rfl, by decide⟩
      | false =>
          rw [digits]
          exact ⟨d, _, rfl, by simp [isOpening, digit]⟩

/-- The byte that a value begins with is no space and does not close anything. -/
theorem isClosing_of_isOpening {b : UInt8} (h : isOpening b = true) : isClosing b = false := by
  simp only [isOpening, Bool.or_eq_true, decide_eq_true_eq] at h
  rcases h with ((((((rfl | rfl) | digit) | rfl) | rfl) | rfl) | rfl) | rfl
  case inl.inl.inl.inl.inl.inr =>
    rw [Bool.eq_false_iff]
    intro closing
    simp only [isClosing, isSpace, Bool.or_eq_true, decide_eq_true_eq] at closing
    rcases closing with ((((((rfl | rfl) | rfl) | rfl) | rfl) | rfl) | rfl) | rfl
    all_goals exact absurd digit (by decide)
  all_goals decide

theorem isSpace_of_isClosing {b : UInt8} (h : isClosing b = false) : isSpace b = false := by
  simp only [isClosing, Bool.or_eq_false_iff] at h
  exact h.1.1.1.1

/-- Spaces before a value are passed over. -/
theorem head_append {spaces : Bytes} (are : AreSpaces spaces) (s : Bytes) :
    head (spaces ++ s) = head s := by
  rw [head, skipSpaces_append are]
  rfl

theorem head_quote (s : Bytes) : head (ascii '\x22' :: s) =
    (Literal.read s).map fun (t, rest) => (.string t, rest) := by
  rfl

theorem head_minus (s : Bytes) : head (ascii '-' :: s) =
    (Numeral.read true s).map fun (n, rest) => (.number n, rest) := by
  rfl

theorem head_digit {d : UInt8} (h : isDigit d = true) (s : Bytes) : head (d :: s) =
    (Numeral.read false (d :: s)).map fun (n, rest) => (.number n, rest) := by
  have opening : isOpening d = true := by simp [isOpening, h]
  have quote : d ≠ ascii '\x22' := fun same => absurd (same ▸ h) (by decide)
  have minus : d ≠ ascii '-' := fun same => absurd (same ▸ h) (by decide)
  rw [head, skipSpaces_cons (isSpace_of_isClosing (isClosing_of_isOpening opening))]
  simp only [if_neg quote, if_neg minus, if_pos h]

theorem head_null (s : Bytes) : head (Text.utf8 "null" ++ s) = .ok (.null, s) := by
  rfl

theorem head_true (s : Bytes) : head (Text.utf8 "true" ++ s) = .ok (.bool true, s) := by
  rfl

theorem head_false (s : Bytes) : head (Text.utf8 "false" ++ s) = .ok (.bool false, s) := by
  rfl

theorem head_array (s : Bytes) : head (ascii '[' :: s) = .ok (.sequence, ascii '[' :: s) := by
  rfl

theorem head_object (s : Bytes) : head (ascii '\x7b' :: s) = .ok (.map, ascii '\x7b' :: s) := by
  rfl

/-- A scalar is known at first sight. -/
theorem head_scalar {s rest : Bytes} {v : Json} (h : IsScalar s v)
    (ends : Ends rest) : head (s ++ rest) = .ok (v.shape, rest) := by
  cases h with
  | null => exact head_null rest
  | yes => exact head_true rest
  | no => exact head_false rest
  | string spelled =>
      obtain ⟨inner, rfl, spelled⟩ := spelled
      rw [List.cons_append, List.append_assoc, head_quote, List.singleton_append,
        Literal.read_eq_ok_iff.mpr ⟨inner, rfl, spelled⟩]
      rfl
  | @number _ p _ spelled means =>
      obtain ⟨t, rfl, isUnsigned⟩ := spelled
      have read := (Numeral.read_append_eq_ok_iff isUnsigned (p.stops_of_ends ends)).mpr ⟨rfl, means⟩
      cases sign : p.negative with
      | true =>
          rw [sign] at read
          simp only [if_true, List.cons_append, List.nil_append, head_minus, read]
          rfl
      | false =>
          rw [sign] at read
          obtain ⟨whole, f, e, rfl, -⟩ := isUnsigned
          obtain ⟨d, ds, digits, digit⟩ := whole.digits.exists_cons
          rw [digits] at read ⊢
          simp only [List.cons_append] at read
          simp only [Bool.false_eq_true, if_false, List.nil_append, List.cons_append,
            head_digit digit, read]
          rfl

/-- What is left of a scalar behind its first sight is nothing. -/
theorem IsScalar.remainder_eq {s : Bytes} {v : Json} (h : IsScalar s v)
    (inner : Option (Reader Json)) (rest : Bytes) :
    remainder inner v.shape rest = .ok (v, rest) := by
  cases h <;> rfl

theorem eq_of_word_eq_ok {w s rest : Bytes} (h : word w s = .ok rest) : s = w ++ rest := by
  induction w generalizing s with
  | nil =>
      cases h
      rfl
  | cons b w ih =>
      cases s with
      | nil => cases h
      | cons c s =>
          rw [word] at h
          split at h
          · rename_i same
            rw [same, ih h]
            rfl
          · cases h

/-- A first sight is that of a scalar or of a bracket. -/
theorem exists_of_head_eq_ok {s rest : Bytes} {shape : Shape} (h : head s = .ok (shape, rest)) :
    ∃ spaces t, s = spaces ++ t ∧ AreSpaces spaces ∧
      ((∃ u v, t = u ++ rest ∧ IsScalar u v ∧ shape = v.shape) ∨
        (t = rest ∧ ∃ u, (rest = ascii '[' :: u ∧ shape = .sequence) ∨
          (rest = ascii '\x7b' :: u ∧ shape = .map))) := by
  obtain ⟨spaces, text, are⟩ := exists_spaces s
  refine ⟨spaces, skipSpaces s, text, are, ?_⟩
  rw [head] at h
  cases left : skipSpaces s with
  | nil =>
      rw [left] at h
      cases h
  | cons b t =>
      rw [left] at h
      simp only at h
      split at h
      · rename_i quote
        subst quote
        obtain ⟨⟨text, behind⟩, read, same⟩ := map_eq_ok.mp h
        obtain ⟨inner, rfl, spelled⟩ := Literal.read_eq_ok_iff.mp read
        cases same
        exact .inl ⟨ascii '\x22' :: (inner ++ [ascii '\x22']), string text, by simp,
          .string ⟨inner, rfl, spelled⟩, rfl⟩
      split at h
      · rename_i minus
        obtain ⟨⟨x, behind⟩, read, same⟩ := map_eq_ok.mp h
        obtain ⟨p, u, rfl, sign, isUnsigned, -, means⟩ := Numeral.read_eq_ok_iff.mp read
        cases same
        refine .inl ⟨b :: u, number x, rfl, .number ⟨u, ?_, isUnsigned⟩ means, rfl⟩
        rw [sign, minus]
        rfl
      split at h
      · obtain ⟨⟨x, behind⟩, read, same⟩ := map_eq_ok.mp h
        obtain ⟨p, u, text, sign, isUnsigned, -, means⟩ := Numeral.read_eq_ok_iff.mp read
        cases same
        refine .inl ⟨u, number x, text, .number ⟨u, ?_, isUnsigned⟩ means, rfl⟩
        rw [sign]
        rfl
      split at h
      · rename_i first
        obtain ⟨behind, read, same⟩ := map_eq_ok.mp h
        cases same
        refine .inl ⟨Text.utf8 "null", null, ?_, .null, rfl⟩
        rw [first, eq_of_word_eq_ok read]
        rfl
      split at h
      · rename_i first
        obtain ⟨behind, read, same⟩ := map_eq_ok.mp h
        cases same
        refine .inl ⟨Text.utf8 "true", bool true, ?_, .yes, rfl⟩
        rw [first, eq_of_word_eq_ok read]
        rfl
      split at h
      · rename_i first
        obtain ⟨behind, read, same⟩ := map_eq_ok.mp h
        cases same
        refine .inl ⟨Text.utf8 "false", bool false, ?_, .no, rfl⟩
        rw [first, eq_of_word_eq_ok read]
        rfl
      split at h
      · rename_i bracket
        cases h
        exact .inr ⟨rfl, t, .inl ⟨by rw [bracket], rfl⟩⟩
      split at h
      · rename_i bracket
        cases h
        exact .inr ⟨rfl, t, .inr ⟨by rw [bracket], rfl⟩⟩
      · cases h

end RegionApi.Json
