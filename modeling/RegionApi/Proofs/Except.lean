/-!
# Steps that can fail

A chain of steps succeeds exactly if its first step does and the rest succeeds on what it brought.
Two chains whose steps are alike, one by one, are alike as a whole (`Mirrors.bind`).
-/

namespace RegionApi

variable {ε α β : Type}

theorem ok_bind (a : α) (f : α → Except ε β) : (Except.ok a >>= f) = f a := rfl

theorem bind_eq_ok {x : Except ε α} {f : α → Except ε β} {b : β} :
    (x >>= f) = .ok b ↔ ∃ a, x = .ok a ∧ f a = .ok b := by
  refine ⟨fun h => ?_, ?_⟩
  · cases x with
    | error e => cases h
    | ok a => exact ⟨a, rfl, h⟩
  · rintro ⟨a, rfl, h⟩
    exact h

theorem map_eq_ok {x : Except ε α} {f : α → β} {b : β} :
    x.map f = .ok b ↔ ∃ a, x = .ok a ∧ f a = b := by
  refine ⟨fun h => ?_, ?_⟩
  · cases x with
    | error e => cases h
    | ok a => exact ⟨a, rfl, Except.ok.inj h⟩
  · rintro ⟨a, rfl, rfl⟩
    rfl

theorem map_some_eq_ok_some {x : Except ε α} {a : α} : x.map some = .ok (some a) ↔ x = .ok a := by
  rw [map_eq_ok]
  constructor
  · rintro ⟨b, rfl, same⟩
    rw [Option.some.inj same]
  · rintro rfl
    exact ⟨a, rfl, rfl⟩

theorem map_none_ne_ok_some (x : Except ε α) (b : β) :
    (x.map fun _ => (none : Option β)) ≠ .ok (some b) := by
  intro h
  obtain ⟨-, -, same⟩ := map_eq_ok.mp h
  cases same

theorem toOption_eq_some_iff {x : Except ε α} {a : α} : x.toOption = some a ↔ x = .ok a := by
  cases x <;> simp [Except.toOption]

/-! ## Alike results -/

/-- Whether a result is like another one: both fail, or what they bring belongs together. -/
inductive Mirrors {ε ε' α β : Type} (together : α → β → Prop) : Except ε α → Except ε' β → Prop
  | ok {a : α} {b : β} (h : together a b) : Mirrors together (.ok a) (.ok b)
  | error (e : ε) (e' : ε') : Mirrors together (.error e) (.error e')

namespace Mirrors

variable {ε' γ δ : Type} {together : α → β → Prop} {x : Except ε α}

theorem mono {y : Except ε' β} {also : α → β → Prop} (h : Mirrors together x y)
    (each : ∀ a b, together a b → also a b) : Mirrors also x y := by
  cases h with
  | ok h => exact .ok (each _ _ h)
  | error e e' => exact .error e e'

/-- Steps that go on alike from what belongs together come to what is alike. -/
theorem bind {y : Except ε' β} {onward : γ → δ → Prop} {f : α → Except ε γ} {g : β → Except ε' δ}
    (h : Mirrors together x y) (each : ∀ a b, together a b → Mirrors onward (f a) (g b)) :
    Mirrors onward (x >>= f) (y >>= g) := by
  cases h with
  | ok h => exact each _ _ h
  | error e e' => exact .error e e'

/-- Of results that bring the same both fail, or both bring it. -/
theorem toOption_eq {y : Except ε' α} (h : Mirrors Eq x y) : x.toOption = y.toOption := by
  cases h with
  | ok same => rw [same]; rfl
  | error => rfl

end Mirrors

end RegionApi
