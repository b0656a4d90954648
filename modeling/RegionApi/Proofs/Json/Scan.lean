import Mathlib.Data.List.TakeWhile
import RegionApi.Proofs.Json.Grammar

/-!
# Loops and spaces

The only loop of a reader goes on while its step brings a new state. What it read is told by rules
(`Runs`), and as a step that leaves less of the text may be put before any run
(`repeated_of_go`), the count that bounds the loop does not matter. Lists are read by such loops
(`StepsThrough.repeated_eq_ok_iff`).
-/

namespace RegionApi.Json

open Text (ascii)

/-! ## Runs of a loop -/

section Loop

variable {σ : Type} {step : σ → Reader (σ ⊕ σ)}

/-- How a loop comes from a state before a text to its last one before a rest. -/
inductive Runs (step : σ → Reader (σ ⊕ σ)) : σ → Bytes → σ → Bytes → Prop
  | stop {state last : σ} {s rest : Bytes} (stops : step state s = .ok (.inr last, rest)) :
      Runs step state s last rest
  | go {state next last : σ} {s left rest : Bytes} (goes : step state s = .ok (.inl next, left))
      (onward : Runs step next left last rest) : Runs step state s last rest

theorem runs_of_repeatedAtMost {n : Nat} {state last : σ} {s rest : Bytes}
    (h : repeatedAtMost step n state s = .ok (last, rest)) : Runs step state s last rest := by
  induction n generalizing state s with
  | zero => cases h
  | succ n ih =>
      rw [repeatedAtMost] at h
      split at h
      · cases h
      · rename_i next left goes
        exact .go goes (ih h)
      · rename_i final left stops
        cases h
        exact .stop stops

theorem runs_of_repeated {state last : σ} {s rest : Bytes}
    (h : repeated step state s = .ok (last, rest)) : Runs step state s last rest :=
  runs_of_repeatedAtMost h

/-- A greater count does no harm. -/
theorem repeatedAtMost_mono {m n : Nat} (le : m ≤ n) {state : σ} {s : Bytes} {r : σ × Bytes}
    (h : repeatedAtMost step m state s = .ok r) : repeatedAtMost step n state s = .ok r := by
  induction m generalizing n state s with
  | zero => cases h
  | succ m ih =>
      obtain ⟨n, rfl⟩ := Nat.exists_eq_add_of_le' (Nat.le_trans (Nat.succ_pos m) le)
      rw [repeatedAtMost] at h ⊢
      split at h
      · cases h
      · exact ih (Nat.le_of_succ_le_succ le) h
      · exact h

theorem repeated_of_stop {state last : σ} {s rest : Bytes}
    (stops : step state s = .ok (.inr last, rest)) : repeated step state s = .ok (last, rest) := by
  rw [repeated, repeatedAtMost, stops]

/-- A step that reads something may come before. -/
theorem repeated_of_go {state next : σ} {s left : Bytes} {r : σ × Bytes}
    (goes : step state s = .ok (.inl next, left)) (less : left.length < s.length)
    (onward : repeated step next left = .ok r) : repeated step state s = .ok r := by
  rw [repeated, repeatedAtMost, goes]
  exact repeatedAtMost_mono less onward

end Loop

/-! ## Spaces -/

theorem areSpaces_nil : AreSpaces [] := fun _ h => absurd h List.not_mem_nil

theorem AreSpaces.append {s t : Bytes} (hs : AreSpaces s) (ht : AreSpaces t) :
    AreSpaces (s ++ t) := by
  intro b hb
  rcases List.mem_append.mp hb with hb | hb
  · exact hs b hb
  · exact ht b hb

/-- There need not be any spaces. -/
theorem spaced_of_part {α : Type} {part : Bytes → α → Prop} {s : Bytes} {a : α} (h : part s a) :
    Spaced part s a := Spaced.mk areSpaces_nil h

/-- Spaces are passed over. -/
theorem skipSpaces_append {spaces : Bytes} (are : AreSpaces spaces) (s : Bytes) :
    skipSpaces (spaces ++ s) = skipSpaces s := List.dropWhile_append_of_pos are

theorem skipSpaces_cons {b : UInt8} (h : isSpace b = false) (s : Bytes) :
    skipSpaces (b :: s) = b :: s := List.dropWhile_cons_of_neg (by simp [h])

/-- Spaces before a token are passed over, and the token is not. -/
theorem skipSpaces_token {spaces : Bytes} (are : AreSpaces spaces) {b : UInt8}
    (h : isSpace b = false) (s : Bytes) : skipSpaces (spaces ++ b :: s) = b :: s := by
  rw [skipSpaces_append are, skipSpaces_cons h]

/-- What is passed over are spaces. -/
theorem exists_spaces (s : Bytes) : ∃ spaces, s = spaces ++ skipSpaces s ∧ AreSpaces spaces :=
  ⟨s.takeWhile isSpace, List.takeWhile_append_dropWhile.symm, fun _ hb => List.mem_takeWhile_imp hb⟩

/-! ## What follows a value -/

/-- Whether no digit comes next. -/
def NoDigit (s : Bytes) : Prop := ∀ b ∈ s.head?, isDigit b = false

/-- Whether what comes next does not belong to a numeral before it. -/
structure Ends (s : Bytes) : Prop where
  digit : NoDigit s
  point : s.head? ≠ some (ascii '.')
  exponent : Numeral.isExponent s = false

theorem ends_nil : Ends [] := by
  refine ⟨?_, ?_, rfl⟩
  · intro b hb
    cases hb
  · intro h
    cases h

/-- The bytes that are spaces, and those between and behind values. -/
def isClosing (b : UInt8) : Bool :=
  isSpace b || b = ascii ',' || b = ascii ']' || b = ascii '\x7d' || b = ascii ':'

theorem ends_cons {b : UInt8} (h : isClosing b = true) (s : Bytes) : Ends (b :: s) := by
  have ends (digit : isDigit b = false) (point : b ≠ ascii '.')
      (exponent : Numeral.isExponent [b] = false) : Ends (b :: s) := by
    refine ⟨?_, fun same => point (Option.some.inj same), exponent⟩
    intro c hc
    cases hc
    exact digit
  simp only [isClosing, isSpace, Bool.or_eq_true, decide_eq_true_eq] at h
  rcases h with ((((((rfl | rfl) | rfl) | rfl) | rfl) | rfl) | rfl) | rfl
  all_goals exact ends (by decide) (by decide) (by decide)

/-- Spaces and then a closing byte end a numeral. -/
theorem ends_token {spaces : Bytes} (are : AreSpaces spaces) {b : UInt8} (h : isClosing b = true)
    (s : Bytes) : Ends (spaces ++ b :: s) := by
  cases spaces with
  | nil => exact ends_cons h s
  | cons c spaces =>
      have space : isSpace c = true := are c List.mem_cons_self
      exact ends_cons (by simp [isClosing, space]) _

/-! ## Lists -/

/-- What follows a list of further parts follows the last of them. -/
theorem append_further (before s t rest : Bytes) :
    before ++ ascii ',' :: (s ++ t) ++ rest = before ++ ascii ',' :: (s ++ (t ++ rest)) := by
  simp

/-- What follows a list in brackets follows the closing one. -/
theorem append_bracketed (opening closing : UInt8) (s spaces rest : Bytes) :
    opening :: (s ++ (spaces ++ [closing])) ++ rest =
      opening :: (s ++ (spaces ++ closing :: rest)) := by
  simp

section Lists

variable {α σ : Type} {part : Bytes → α → Prop}

/-- Behind a part of a list stands a comma or the closing byte, so no numeral goes on there. -/
theorem Further.ends {s : Bytes} {as : List α} (h : Further part s as) {spaces : Bytes}
    (are : AreSpaces spaces) {closing : UInt8} (closes : isClosing closing = true) (rest : Bytes) :
    Ends (s ++ (spaces ++ closing :: rest)) := by
  cases h with
  | nil => exact ends_token are closes rest
  | cons areBefore _ _ =>
      rw [List.append_assoc]
      exact ends_token areBefore (by decide) _

variable (part)

/-- How the step of a loop reads a list: a part that comes first, one that comes further behind a
comma, and the closing byte. Each is read wherever it stands, and nothing else is. -/
structure StepsThrough (step : σ → Reader (σ ⊕ σ)) (fresh : σ → Prop) (push : σ → α → σ)
    (closed : σ → σ) (closing : UInt8) : Prop where
  closes : isClosing closing = true
  pushed (state : σ) (a : α) : ¬fresh (push state a)
  nonempty {s : Bytes} {a : α} : part s a → s ≠ []
  first {state : σ} {s rest : Bytes} {a : α} : fresh state → part s a → Ends rest →
    step state (s ++ rest) = .ok (.inl (push state a), rest)
  further {state : σ} {spaces s rest : Bytes} {a : α} : ¬fresh state → AreSpaces spaces →
    part s a → Ends rest →
    step state (spaces ++ ascii ',' :: (s ++ rest)) = .ok (.inl (push state a), rest)
  stops {state : σ} {spaces rest : Bytes} : AreSpaces spaces →
    step state (spaces ++ closing :: rest) = .ok (.inr (closed state), rest)
  onlyFirst {state next : σ} {s rest : Bytes} : fresh state →
    step state s = .ok (.inl next, rest) →
    ∃ t a, s = t ++ rest ∧ part t a ∧ next = push state a
  onlyFurther {state next : σ} {s rest : Bytes} : ¬fresh state →
    step state s = .ok (.inl next, rest) →
    ∃ spaces t a, s = spaces ++ ascii ',' :: (t ++ rest) ∧ AreSpaces spaces ∧ part t a ∧
      next = push state a
  onlyStops {state last : σ} {s rest : Bytes} : step state s = .ok (.inr last, rest) →
    ∃ spaces, s = spaces ++ closing :: rest ∧ AreSpaces spaces ∧ last = closed state

variable {part} {step : σ → Reader (σ ⊕ σ)} {fresh : σ → Prop} {push : σ → α → σ}
  {closed : σ → σ} {closing : UInt8}

namespace StepsThrough

/-- What follows the first part is read to the closing byte. -/
theorem repeated_of_further (h : StepsThrough part step fresh push closed closing) {s spaces : Bytes}
    {as : List α} (further : Further part s as) (are : AreSpaces spaces) {state : σ}
    (begun : ¬fresh state) (rest : Bytes) :
    repeated step state (s ++ (spaces ++ closing :: rest)) =
      .ok (closed (as.foldl push state), rest) := by
  induction further generalizing state with
  | nil => exact repeated_of_stop (h.stops are)
  | @cons before s t a as areBefore first others ih =>
      have goes := h.further begun areBefore first (others.ends are h.closes rest)
      rw [append_further]
      refine repeated_of_go goes ?_ (ih (h.pushed state a))
      simp only [List.length_append, List.length_cons]
      omega

/-- Nothing but further parts and a closing byte is read. -/
theorem further_of_runs (h : StepsThrough part step fresh push closed closing) {state last : σ}
    {s rest : Bytes} (begun : ¬fresh state) (runs : Runs step state s last rest) :
    ∃ t spaces as, s = t ++ (spaces ++ closing :: rest) ∧ Further part t as ∧ AreSpaces spaces ∧
      last = closed (as.foldl push state) := by
  induction runs with
  | stop stop =>
      obtain ⟨spaces, text, are, last⟩ := h.onlyStops stop
      exact ⟨[], spaces, [], text, .nil, are, last⟩
  | go go _ ih =>
      obtain ⟨before, t, a, text, areBefore, first, rfl⟩ := h.onlyFurther begun go
      obtain ⟨u, spaces, as, rest, others, are, last⟩ := ih (h.pushed _ a)
      refine ⟨before ++ ascii ',' :: (t ++ u), spaces, a :: as, ?_, .cons areBefore first others,
        are, last⟩
      rw [text, rest]
      simp

/-- A list is read exactly from what spells it, up to its closing byte. -/
theorem repeated_eq_ok_iff (h : StepsThrough part step fresh push closed closing) {state last : σ}
    {s rest : Bytes} (start : fresh state) :
    repeated step state s = .ok (last, rest) ↔
      ∃ t spaces as, s = t ++ (spaces ++ closing :: rest) ∧ Listed part t as ∧ AreSpaces spaces ∧
        last = closed (as.foldl push state) := by
  constructor
  · intro read
    cases runs_of_repeated read with
    | stop stop =>
        obtain ⟨spaces, text, are, last⟩ := h.onlyStops stop
        exact ⟨[], spaces, [], text, .nil, are, last⟩
    | go go onward =>
        obtain ⟨t, a, rfl, first, rfl⟩ := h.onlyFirst start go
        obtain ⟨u, spaces, as, rfl, others, are, last⟩ := h.further_of_runs (h.pushed _ a) onward
        exact ⟨t ++ u, spaces, a :: as, by simp, .cons first others, are, last⟩
  · rintro ⟨t, spaces, as, rfl, listed, are, rfl⟩
    cases listed with
    | nil => exact repeated_of_stop (h.stops are)
    | @cons s t a as first others =>
        have goes := h.first start first (others.ends are h.closes rest)
        rw [List.append_assoc]
        refine repeated_of_go goes ?_ (h.repeated_of_further others are (h.pushed state a) rest)
        have some := List.length_pos_iff.mpr (h.nonempty first)
        simp only [List.length_append]
        omega

end StepsThrough

end Lists

end RegionApi.Json
