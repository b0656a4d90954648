import RegionApi.Json.Fault

/-!
# Reading a text from the left

A reader takes a rest of a text and returns what it has read together with the rest behind it, or a
failure. `repeated` is the only loop: it goes on while its step asks for more.
-/

namespace RegionApi.Json

/-- What reads something at the beginning of a text. -/
abbrev Reader (α : Type) := Bytes → Except Failure (α × Bytes)

/-- Whether a byte is a space between tokens. -/
def isSpace (b : UInt8) : Bool := b = 32 || b = 9 || b = 10 || b = 13

/-- A text without the spaces at its beginning. -/
def skipSpaces (s : Bytes) : Bytes := s.dropWhile isSpace

/-- Whether a byte is a decimal digit. -/
def isDigit (b : UInt8) : Bool := Text.ascii '0' ≤ b && b ≤ Text.ascii '9'

/-- The value of a decimal digit. -/
def digitValue (b : UInt8) : Nat := b.toNat - 48

/-- Reads a word that is known from its first letter. -/
def word : Bytes → Bytes → Except Failure Bytes
  | [], s => .ok s
  | _ :: _, [] => .error (Fault.before .endInValue [])
  | e :: es, b :: s => if b = e then word es s else .error (Fault.before .noWord s)

/-- Repeats a step while it brings a new state; the count has to be at least the length of the text,
as every such step reads something. -/
def repeatedAtMost {σ : Type} (step : σ → Reader (σ ⊕ σ)) : Nat → σ → Reader σ
  | 0, _, s => .error (Fault.before .endInValue s)
  | n + 1, state, s =>
    match step state s with
    | .error f => .error f
    | .ok (.inl reached, rest) => repeatedAtMost step n reached rest
    | .ok (.inr reached, rest) => .ok (reached, rest)

/-- Repeats a step while it brings a new state on the left, and ends with the state on the right. -/
def repeated {σ : Type} (step : σ → Reader (σ ⊕ σ)) (state : σ) : Reader σ :=
  fun s => repeatedAtMost step (s.length + 1) state s

@[simp] theorem skipSpaces_nil : skipSpaces [] = [] := rfl

@[simp] theorem word_nil (s : Bytes) : word [] s = .ok s := rfl

end RegionApi.Json
