import RegionApi.Proofs.Except
import RegionApi.Proofs.Json.Scan

/-!
# Numerals are read as the grammar has them

A numeral is read up to the first byte that does not belong to it, and as the number that it stands
for (`read_eq_ok_iff`). The reader takes digits into a word while they fit, which cuts them where the
grammar does (`isCut_gather`, `IsCut.gather_eq`).
-/

namespace RegionApi.Json.Numeral

open Text (ascii)

/-! ## Digits -/

section Digits

variable {ds rest : Bytes}

theorem takeWhile_isDigit (each : ∀ d ∈ ds, isDigit d = true) (stop : NoDigit rest) :
    (ds ++ rest).takeWhile isDigit = ds := by
  rw [List.takeWhile_append_of_pos each]
  cases rest with
  | nil => exact List.append_nil ds
  | cons b rest =>
      rw [List.takeWhile_cons_of_neg (by simp [stop b rfl]), List.append_nil]

theorem dropWhile_isDigit (each : ∀ d ∈ ds, isDigit d = true) (stop : NoDigit rest) :
    (ds ++ rest).dropWhile isDigit = rest := by
  rw [List.dropWhile_append_of_pos each]
  cases rest with
  | nil => rfl
  | cons b rest => exact List.dropWhile_cons_of_neg (by simp [stop b rfl])

/-- A text begins with some digits, and goes on with something else. -/
theorem exists_digits (s : Bytes) :
    s = s.takeWhile isDigit ++ s.dropWhile isDigit ∧
      (∀ d ∈ s.takeWhile isDigit, isDigit d = true) ∧ NoDigit (s.dropWhile isDigit) := by
  refine ⟨List.takeWhile_append_dropWhile.symm, fun _ hd => List.mem_takeWhile_imp hd, ?_⟩
  intro b hb
  exact Bool.eq_false_iff.mpr fun digit => by
    have first := List.head?_dropWhile_not isDigit s
    rw [Option.mem_def.mp hb] at first
    simp [digit] at first

theorem noDigit_cons {b : UInt8} (h : isDigit b = false) (s : Bytes) : NoDigit (b :: s) := by
  intro c hc
  cases hc
  exact h

theorem AreDigits.exists_cons (h : AreDigits ds) : ∃ d t, ds = d :: t ∧ isDigit d = true := by
  obtain ⟨d, t, rfl⟩ := List.exists_cons_of_ne_nil h.nonempty
  exact ⟨d, t, rfl, h.each d List.mem_cons_self⟩

end Digits

/-! ## Cutting digits -/

theorem value_eq (ds : Bytes) : value ds = valueFrom 0 ds := rfl

theorem valueFrom_cons (start : Nat) (d : UInt8) (ds : Bytes) :
    valueFrom start (d :: ds) = valueFrom (10 * start + digitValue d) ds := by
  rw [valueFrom, List.foldl_cons, valueFrom]

theorem le_valueFrom (start : Nat) (ds : Bytes) : start ≤ valueFrom start ds := by
  induction ds generalizing start with
  | nil => exact Nat.le_refl _
  | cons d ds ih =>
      rw [valueFrom_cons]
      exact Nat.le_trans (by omega) (ih _)

/-- What is gathered is what the grammar counts. -/
theorem isCut_gather (limit start : Nat) (ds : Bytes) (below : start < limit) :
    IsCut limit start ds (gather limit start ds).1 (gather limit start ds).2 := by
  induction ds generalizing start with
  | nil => exact ⟨⟨[], rfl, rfl⟩, below, fun _ hd => absurd hd (Option.not_mem_none _)⟩
  | cons d ds ih =>
      rw [gather]
      split
      · rename_i fits
        obtain ⟨⟨taken, text, number⟩, less, most⟩ := ih _ fits
        exact ⟨⟨d :: taken, congrArg (d :: ·) text, number⟩, less, most⟩
      · rename_i exceeds
        refine ⟨⟨[], rfl, rfl⟩, below, fun e he => ?_⟩
        obtain rfl : d = e := Option.some.inj he
        exact Nat.not_lt.mp exceeds

/-- There is one way to cut digits. -/
theorem IsCut.gather_eq {limit start n : Nat} {ds left : Bytes}
    (h : IsCut limit start ds n left) : gather limit start ds = (n, left) := by
  obtain ⟨⟨taken, text, number⟩, below, most⟩ := h
  induction taken generalizing start ds with
  | nil =>
      obtain rfl : ds = left := text
      obtain rfl : n = start := number
      cases ds with
      | nil => rfl
      | cons d ds => exact if_neg (Nat.not_lt.mpr (most d rfl))
  | cons d taken ih =>
      obtain rfl : ds = d :: (taken ++ left) := text
      rw [valueFrom_cons] at number
      have fits : 10 * start + digitValue d < limit :=
        Nat.lt_of_le_of_lt (number ▸ le_valueFrom _ taken) below
      rw [gather, if_pos fits]
      exact ih rfl number

/-- Digits are all taken exactly if the number they make is below the limit. -/
theorem IsCut.left_eq_nil_iff {limit start n : Nat} {ds left : Bytes}
    (h : IsCut limit start ds n left) : left = [] ↔ valueFrom start ds < limit := by
  obtain ⟨⟨taken, rfl, rfl⟩, below, most⟩ := h
  constructor
  · rintro rfl
    rwa [List.append_nil]
  · intro less
    cases left with
    | nil => rfl
    | cons d left =>
        have great : valueFrom start (taken ++ d :: left) =
            valueFrom (10 * valueFrom start taken + digitValue d) left := by
          simp [valueFrom]
        rw [great] at less
        have most := most d rfl
        exact absurd (Nat.lt_of_le_of_lt (le_valueFrom _ _) less) (Nat.not_lt.mpr most)

theorem IsCut.eq_of_left_eq_nil {limit start n : Nat} {ds : Bytes}
    (h : IsCut limit start ds n []) : n = valueFrom start ds := by
  obtain ⟨⟨taken, rfl, rfl⟩, -, -⟩ := h
  rw [List.append_nil]

/-! ## Whole numbers -/

theorem whole_append {ds rest : Bytes} (h : IsWhole ds) (stop : NoDigit rest) :
    whole (ds ++ rest) = .ok (ds, rest) := by
  obtain ⟨d, t, rfl, digit⟩ := h.digits.exists_cons
  have lone : ¬(d = ascii '0' ∧ (t ++ rest).head?.any isDigit = true) := by
    rintro ⟨rfl, more⟩
    obtain rfl : t = [] := (List.cons.inj (h.zero rfl)).2
    cases rest with
    | nil => cases more
    | cons b rest => exact absurd more (by simp [stop b rfl])
  have taken := takeWhile_isDigit h.digits.each stop
  have left := dropWhile_isDigit h.digits.each stop
  rw [List.cons_append] at taken left ⊢
  rw [whole, if_neg (by simp [digit]), if_neg (by simpa using lone), taken, left]

theorem exists_of_whole_eq_ok {s ds rest : Bytes} (h : whole s = .ok (ds, rest)) :
    s = ds ++ rest ∧ IsWhole ds ∧ NoDigit rest := by
  cases s with
  | nil => cases h
  | cons d t =>
      rw [whole] at h
      split at h
      · cases h
      · rename_i notDigit
        have digit : isDigit d = true := by simpa using notDigit
        split at h
        · cases h
        · rename_i single
          cases h
          obtain ⟨text, each, stop⟩ := exists_digits (d :: t)
          have taken : (d :: t).takeWhile isDigit = d :: t.takeWhile isDigit :=
            List.takeWhile_cons_of_pos digit
          refine ⟨text, ⟨⟨?_, each⟩, ?_⟩, stop⟩
          · rw [taken]
            exact List.cons_ne_nil _ _
          · intro zero
            rw [taken] at zero ⊢
            obtain rfl : d = ascii '0' := Option.some.inj zero
            cases t with
            | nil => rfl
            | cons e t =>
                have other : isDigit e = false := by simpa using single
                rw [List.takeWhile_cons_of_neg (by simp [other])]

/-! ## Fractions -/

/-- What is known of a numeral once its fraction is read. -/
def Scaled.withFraction (n : Scaled) (ds : Bytes) : Scaled :=
  let cut := gather wordLimit n.digits ds
  ⟨cut.1, n.power - (ds.length - cut.2.length)⟩

theorem fraction_append {ds rest : Bytes} (n : Scaled) (h : AreDigits ds) (stop : NoDigit rest) :
    fraction n (ds ++ rest) = .ok (n.withFraction ds, rest) := by
  simp only [fraction, takeWhile_isDigit h.each stop, dropWhile_isDigit h.each stop,
    if_neg h.nonempty]
  rfl

theorem exists_of_fraction_eq_ok {n m : Scaled} {s rest : Bytes}
    (h : fraction n s = .ok (m, rest)) :
    ∃ ds, s = ds ++ rest ∧ AreDigits ds ∧ NoDigit rest ∧ m = n.withFraction ds := by
  obtain ⟨text, each, stop⟩ := exists_digits s
  by_cases none : s.takeWhile isDigit = []
  · rw [fraction, if_pos none] at h
    cases h
  · have digits : AreDigits (s.takeWhile isDigit) := ⟨none, each⟩
    have read := fraction_append n digits stop
    rw [← text, h] at read
    cases read
    exact ⟨_, text, digits, stop, rfl⟩

/-! ## Exponents -/

/-- Whether an exponent can be applied to a number of these digits. -/
def Bounded (digits : Nat) (negative : Bool) (ds : Bytes) : Prop :=
  digits = 0 ∨ negative = true ∨ value ds < exponentLimit

/-- What is known of a numeral once its exponent is read. -/
def Scaled.withExponent (n : Scaled) (negative : Bool) (ds : Bytes) : Scaled :=
  ⟨n.digits, n.power + if negative then -(value ds : Int) else value ds⟩

/-- Whether two say the same. Without digits they do whatever their powers are. -/
def Scaled.Agrees (n m : Scaled) : Prop := n.digits = m.digits ∧ (n.digits ≠ 0 → n.power = m.power)

theorem IsSigned.areDigits {s ds : Bytes} {negative : Bool} (h : IsSigned s negative ds) :
    AreDigits ds := by
  cases h <;> assumption

/-- Digits are read as an exponent within bounds, and only then. -/
theorem unsignedExponent_append {ds rest : Bytes} (n : Scaled) (negative : Bool) (h : AreDigits ds)
    (stop : NoDigit rest) :
    (Bounded n.digits negative ds → ∃ m, unsignedExponent n negative (ds ++ rest) = .ok (m, rest) ∧
      m.Agrees (n.withExponent negative ds)) ∧
    (¬Bounded n.digits negative ds → ∃ f, unsignedExponent n negative (ds ++ rest) = .error f) := by
  have taken := takeWhile_isDigit h.each stop
  have left := dropWhile_isDigit h.each stop
  obtain ⟨d, t, rfl, digit⟩ := h.exists_cons
  have cut := isCut_gather exponentLimit 0 (d :: t) (by decide)
  rw [List.cons_append] at taken left ⊢
  simp only [unsignedExponent, digit, taken, left, Bool.not_true, Bool.false_eq_true, if_false]
  split
  · rename_i c unread great
    have exceeds : ¬value (d :: t) < exponentLimit := by
      intro less
      rw [cut.left_eq_nil_iff.mpr less] at great
      cases great
    cases negative with
    | true =>
        refine ⟨fun _ => ?_, fun unbounded => absurd (.inr (.inl rfl)) unbounded⟩
        rw [if_neg (by simp)]
        exact ⟨_, rfl, rfl, fun _ => Int.sub_eq_add_neg⟩
    | false =>
        by_cases none : n.digits = 0
        · rw [if_neg (by simp [none])]
          exact ⟨fun _ => ⟨_, rfl, rfl, fun digits => absurd none digits⟩,
            fun unbounded => absurd (.inl none) unbounded⟩
        · rw [if_pos ⟨none, rfl⟩]
          exact ⟨fun bounded => absurd bounded (by simp [Bounded, none, exceeds]),
            fun _ => ⟨_, rfl⟩⟩
  · rename_i all
    have less := cut.left_eq_nil_iff.mp all
    refine ⟨fun _ => ⟨_, rfl, rfl, fun _ => ?_⟩, fun unbounded => absurd (.inr (.inr less)) unbounded⟩
    cases negative with
    | true => exact Int.sub_eq_add_neg
    | false => rfl

theorem exists_of_unsignedExponent_eq_ok {n m : Scaled} {negative : Bool} {s rest : Bytes}
    (h : unsignedExponent n negative s = .ok (m, rest)) :
    ∃ ds, s = ds ++ rest ∧ AreDigits ds ∧ NoDigit rest := by
  cases s with
  | nil => cases h
  | cons d t =>
      obtain ⟨text, each, stop⟩ := exists_digits (d :: t)
      rw [unsignedExponent] at h
      split at h
      · cases h
      · rename_i notDigit
        have digit : isDigit d = true := by simpa using notDigit
        have left : (d :: t).dropWhile isDigit = rest := by
          simp only at h
          split at h
          · split at h
            · cases h
            · exact (Prod.mk.inj (Except.ok.inj h)).2
          · exact (Prod.mk.inj (Except.ok.inj h)).2
        rw [left] at text stop
        refine ⟨_, text, ⟨?_, each⟩, stop⟩
        rw [List.takeWhile_cons_of_pos digit]
        exact List.cons_ne_nil _ _

/-- Behind its sign an exponent is read as its digits are. -/
theorem exponent_append {s ds : Bytes} {negative : Bool} (n : Scaled) (h : IsSigned s negative ds)
    (rest : Bytes) : exponent n (s ++ rest) = unsignedExponent n negative (ds ++ rest) := by
  cases h with
  | unsigned digits =>
      obtain ⟨d, t, rfl, digit⟩ := digits.exists_cons
      have minus : d ≠ ascii '-' := fun same => absurd (same ▸ digit) (by decide)
      have plus : d ≠ ascii '+' := fun same => absurd (same ▸ digit) (by decide)
      simp [exponent, minus, plus]
  | plus digits =>
      have other : ascii '+' ≠ ascii '-' := by decide
      simp [exponent, other]
  | minus digits => simp [exponent]

theorem exists_of_exponent_eq_ok {n m : Scaled} {s rest : Bytes}
    (h : exponent n s = .ok (m, rest)) :
    ∃ t negative ds, s = t ++ rest ∧ IsSigned t negative ds ∧ NoDigit rest := by
  rw [exponent] at h
  split at h
  · rename_i minus
    obtain ⟨t, rfl⟩ := List.head?_eq_some_iff.mp minus
    obtain ⟨ds, text, digits, stop⟩ := exists_of_unsignedExponent_eq_ok h
    exact ⟨ascii '-' :: ds, true, ds, congrArg (ascii '-' :: ·) text, .minus digits, stop⟩
  · split at h
    · rename_i plus
      obtain ⟨t, rfl⟩ := List.head?_eq_some_iff.mp plus
      obtain ⟨ds, text, digits, stop⟩ := exists_of_unsignedExponent_eq_ok h
      exact ⟨ascii '+' :: ds, false, ds, congrArg (ascii '+' :: ·) text, .plus digits, stop⟩
    · obtain ⟨ds, text, digits, stop⟩ := exists_of_unsignedExponent_eq_ok h
      exact ⟨ds, false, ds, text, .unsigned digits, stop⟩

/-! ## The rest of a numeral -/

/-- Every power that a number is multiplied with or divided by at once is finite. -/
theorem exists_powerOfTen {k : Nat} (small : k ≤ 308) :
    ∃ x, Number.powerOfTen? k = some x ∧ x.negative = false := by
  have finite : ∀ k ≤ 308, (Number.powerOfTen? k).isSome := by decide +kernel
  obtain ⟨x, hx⟩ := Option.isSome_iff_exists.mp (finite k small)
  exact ⟨x, hx, Binary64.negative_of_ofRatio? hx⟩

/-- Without digits a number is zero, whatever its power is. -/
theorem ofScientific?_zero (negative : Bool) (e : Int) :
    Number.ofScientific? negative 0 e = some (.zero negative) := by
  have whole : Binary64.ofNat? negative 0 = some (.zero negative) := Binary64.ofRatio?_zero _ _
  have divided {x : Binary64} (sign : x.negative = false) :
      (Binary64.zero negative).div? x = some (.zero negative) := by
    simp [Binary64.div?, Binary64.numerator, sign]
  have powers (k : Nat) : Number.dividedByPower? (.zero negative) k = some (.zero negative) := by
    rw [Number.dividedByPower?]
    split
    · rename_i small
      obtain ⟨x, power, sign⟩ := exists_powerOfTen small
      simp [power, divided sign]
    · split
      · rename_i great
        obtain ⟨x, power, sign⟩ := exists_powerOfTen (Nat.le_refl 308)
        obtain ⟨y, power', sign'⟩ := exists_powerOfTen (k := k - 308) (by omega)
        simp [power, power', divided sign, divided sign']
      · rfl
  rw [Number.ofScientific?, whole]
  by_cases sign : e < 0
  · exact (if_pos sign).trans (powers _)
  · exact (if_neg sign).trans rfl

/-- Those that say the same stand for the same number. -/
theorem Scaled.Agrees.ofScientific?_eq {n m : Scaled} (h : n.Agrees m) (negative : Bool) :
    Number.ofScientific? negative n.digits n.power =
      Number.ofScientific? negative m.digits m.power := by
  obtain ⟨digits, power⟩ := h
  by_cases none : n.digits = 0
  · rw [← digits, none, ofScientific?_zero, ofScientific?_zero]
  · rw [power none, digits]

/-- What is known of a numeral once it is read. -/
def Parts.scaled (p : Parts) : Scaled :=
  let cut := gather wordLimit 0 p.whole
  (Scaled.withFraction ⟨cut.1, cut.2.length⟩ p.fraction).withExponent p.exponentNegative p.exponent

/-- The bytes of an exponent, if there is one. -/
theorem exponentIfAny_append {e ds rest : Bytes} {negative : Bool} (n : Scaled)
    (h : IsExponent e negative ds) (stop : NoDigit rest)
    (other : ds = [] → isExponent rest = false) :
    (Bounded n.digits negative ds → ∃ m, exponentIfAny n (e ++ rest) = .ok (m, rest) ∧
      m.Agrees (n.withExponent negative ds)) ∧
    (¬Bounded n.digits negative ds → ∃ f, exponentIfAny n (e ++ rest) = .error f) := by
  cases h with
  | none =>
      refine ⟨fun _ => ⟨n, ?_, rfl, fun _ => (Int.add_zero _).symm⟩, fun unbounded => ?_⟩
      · rw [List.nil_append, exponentIfAny, other rfl]
        rfl
      · exact absurd (.inr (.inr (by decide))) unbounded
  | @some mark s _ _ marked signed =>
      have read : exponentIfAny n (mark :: s ++ rest) = unsignedExponent n negative (ds ++ rest) := by
        rw [List.cons_append, exponentIfAny, if_pos (by rcases marked with rfl | rfl <;> rfl)]
        exact exponent_append n signed rest
      rw [read]
      exact unsignedExponent_append n negative signed.areDigits stop

theorem exists_of_exponentIfAny_eq_ok {n m : Scaled} {s rest : Bytes} (stop : NoDigit s)
    (h : exponentIfAny n s = .ok (m, rest)) :
    ∃ e negative ds, s = e ++ rest ∧ IsExponent e negative ds ∧ NoDigit rest ∧
      (ds = [] → isExponent rest = false ∧ s = rest) := by
  rw [exponentIfAny] at h
  split at h
  · rename_i mark
    cases s with
    | nil => cases mark
    | cons b s =>
        obtain ⟨t, negative, ds, text, signed, ends⟩ := exists_of_exponent_eq_ok h
        refine ⟨b :: t, negative, ds, congrArg (b :: ·) text, .some ?_ signed, ends, fun none =>
          absurd none signed.areDigits.nonempty⟩
        simpa [isExponent] using mark
  · rename_i noMark
    cases h
    exact ⟨[], false, [], rfl, .none, stop, fun _ => ⟨by simpa using noMark, rfl⟩⟩

/-- What is read of a numeral that is no whole number, from behind its fraction. -/
def finish (negative : Bool) (n : Scaled) (s : Bytes) : Except Failure (Number × Bytes) := do
  let (n, rest) ← exponentIfAny n s
  float negative n rest

theorem float_eq_ok_iff {negative : Bool} {n : Scaled} {rest left : Bytes} {x : Number} :
    float negative n rest = .ok (x, left) ↔
      left = rest ∧ ∃ y, Number.ofScientific? negative n.digits n.power = some y ∧ x = .float y := by
  rw [float]
  split
  · rename_i y read
    simp [read, eq_comm, and_comm]
  · rename_i read
    simp [read]

theorem finish_eq_ok_iff {e ds rest left : Bytes} {exponentNegative : Bool} (n : Scaled)
    (h : IsExponent e exponentNegative ds) (stop : NoDigit rest)
    (other : ds = [] → isExponent rest = false) {negative : Bool} {x : Number} :
    finish negative n (e ++ rest) = .ok (x, left) ↔
      left = rest ∧ Bounded n.digits exponentNegative ds ∧
        ∃ y, Number.ofScientific? negative n.digits (n.withExponent exponentNegative ds).power =
          some y ∧ x = .float y := by
  obtain ⟨within, beyond⟩ := exponentIfAny_append n h stop other
  by_cases bounded : Bounded n.digits exponentNegative ds
  · obtain ⟨m, read, agrees⟩ := within bounded
    rw [finish, read, ok_bind, float_eq_ok_iff, agrees.ofScientific?_eq]
    simp [bounded, Scaled.withExponent]
  · obtain ⟨f, refused⟩ := beyond bounded
    rw [finish, refused]
    constructor
    · intro read
      cases read
    · rintro ⟨-, within, -⟩
      exact absurd within bounded

/-! ## Numerals -/

/-- Whether a numeral of these parts does not go on with what comes next. -/
structure Parts.Stops (p : Parts) (rest : Bytes) : Prop where
  digit : NoDigit rest
  exponent : p.exponent = [] → isExponent rest = false
  point : p.fraction = [] → p.exponent = [] → rest.head? ≠ some (ascii '.')

theorem Parts.stops_of_ends (p : Parts) {rest : Bytes} (h : Ends rest) : p.Stops rest :=
  ⟨h.digit, fun _ => h.exponent, fun _ _ => h.point⟩

/-- What is known of a numeral once its whole number is read. -/
def wholeScaled (ds : Bytes) : Scaled :=
  ⟨(gather wordLimit 0 ds).1, (gather wordLimit 0 ds).2.length⟩

section Behind

variable {ds s : Bytes} (negative : Bool) (h : IsWhole ds)
include h

theorem read_of_point :
    read negative (ds ++ ascii '.' :: s) =
      fraction (wholeScaled ds) s >>= fun (n, rest) => finish negative n rest := by
  rw [read, whole_append h (noDigit_cons (by decide) s), ok_bind]
  rfl

variable (stop : NoDigit s) (point : s.head? ≠ some (ascii '.'))
include stop point

theorem read_of_other (other : isExponent s = true ∨ wordLimit ≤ value ds) :
    read negative (ds ++ s) = finish negative (wholeScaled ds) s := by
  rw [read, whole_append h stop, ok_bind, finish, exponentIfAny]
  simp only [if_neg point]
  split
  · rfl
  · rename_i noMark
    have great : wordLimit ≤ value ds := other.resolve_left noMark
    have cut := isCut_gather wordLimit 0 ds (by decide)
    rw [if_neg fun all => Nat.not_lt.mpr great (cut.left_eq_nil_iff.mp all), ok_bind]
    rfl

theorem read_of_whole (exponent : isExponent s = false) (below : value ds < wordLimit) :
    read negative (ds ++ s) =
      match Number.ofInteger? negative (value ds) with
      | some x => .ok (x, s)
      | none => .error (Fault.before .rangeExceeded s) := by
  have cut := isCut_gather wordLimit 0 ds (by decide)
  have all := cut.left_eq_nil_iff.mpr below
  rw [all] at cut
  rw [read, whole_append h stop, ok_bind, value_eq, ← cut.eq_of_left_eq_nil]
  have noMark : ¬isExponent s = true := Bool.eq_false_iff.mp exponent
  exact (if_neg point).trans ((if_neg noMark).trans (if_pos all))

end Behind

theorem IsFraction.noDigit {f ds s : Bytes} (h : IsFraction f ds) (stop : NoDigit s) :
    NoDigit (f ++ s) := by
  cases h with
  | none => exact stop
  | some => exact noDigit_cons (by decide) _

theorem IsExponent.noDigit {e ds s : Bytes} {negative : Bool} (h : IsExponent e negative ds)
    (stop : NoDigit s) : NoDigit (e ++ s) := by
  cases h with
  | none => exact stop
  | some marked =>
      rcases marked with rfl | rfl <;> exact noDigit_cons (by decide) _

theorem IsExponent.eq_nil {e ds : Bytes} {negative : Bool} (h : IsExponent e negative ds)
    (none : ds = []) : e = [] := by
  cases h with
  | none => rfl
  | some _ signed => exact absurd none signed.areDigits.nonempty

theorem IsExponent.isExponent {e ds : Bytes} {negative : Bool} (h : IsExponent e negative ds)
    (some : ds ≠ []) (rest : Bytes) : Numeral.isExponent (e ++ rest) = true := by
  cases h with
  | none => exact absurd rfl some
  | some marked => rcases marked with rfl | rfl <;> rfl

theorem head?_ne_point {s : Bytes} (h : isExponent s = true) : s.head? ≠ some (ascii '.') := by
  intro point
  rw [isExponent, point] at h
  exact absurd h (by decide)

theorem whole_or_scaled (p : Parts) :
    (p.fraction = [] ∧ p.exponent = [] ∧ value p.whole < wordLimit) ∨
      (p.fraction ≠ [] ∨ p.exponent ≠ [] ∨ wordLimit ≤ value p.whole) := by
  by_cases fraction : p.fraction = []
  · by_cases exponent : p.exponent = []
    · rcases Nat.lt_or_ge (value p.whole) wordLimit with below | above
      · exact .inl ⟨fraction, exponent, below⟩
      · exact .inr (.inr (.inr above))
    · exact .inr (.inr (.inl exponent))
  · exact .inr (.inl fraction)

theorem Parts.scaled_eq {p : Parts} {start n : Nat} {places unused : Bytes}
    (first : IsCut wordLimit 0 p.whole start places)
    (further : IsCut wordLimit start p.fraction n unused) :
    p.scaled = ⟨n, places.length - (p.fraction.length - unused.length) + p.power⟩ := by
  rw [Parts.scaled, Scaled.withFraction, first.gather_eq]
  simp only [further.gather_eq]
  rfl

/-- What a numeral means if it is no whole number of a word. -/
theorem Parts.means_scaled_iff {p : Parts}
    (other : p.fraction ≠ [] ∨ p.exponent ≠ [] ∨ wordLimit ≤ value p.whole) {x : Number} :
    p.Means x ↔ Bounded p.scaled.digits p.exponentNegative p.exponent ∧
      ∃ y, Number.ofScientific? p.negative p.scaled.digits p.scaled.power = some y ∧
        x = .float y := by
  constructor
  · intro means
    cases means with
    | whole fraction exponent below =>
        rcases other with h | h | h
        · exact absurd fraction h
        · exact absurd exponent h
        · exact absurd below (Nat.not_lt.mpr h)
    | scaled _ first further bounded meant =>
        rw [Parts.scaled_eq first further]
        exact ⟨bounded, _, meant, rfl⟩
  · rintro ⟨bounded, y, meant, rfl⟩
    have first := isCut_gather wordLimit 0 p.whole (by decide)
    have further := isCut_gather _ _ p.fraction first.below
    rw [Parts.scaled_eq first further] at bounded meant
    exact .scaled other first further bounded meant

/-- What a numeral means if it is a whole number of a word. -/
theorem Parts.means_whole_iff {p : Parts} (fraction : p.fraction = []) (exponent : p.exponent = [])
    (below : value p.whole < wordLimit) {x : Number} :
    p.Means x ↔ Number.ofInteger? p.negative (value p.whole) = some x := by
  constructor
  · intro means
    cases means with
    | whole _ _ _ meant => exact meant
    | scaled other =>
        rcases other with h | h | h
        · exact absurd fraction h
        · exact absurd exponent h
        · exact absurd h (Nat.not_le.mpr below)
  · exact .whole fraction exponent below

/-- A numeral is read as what it means. -/
theorem read_append_eq_ok_iff {p : Parts} {t rest left : Bytes} (h : IsUnsigned t p)
    (stops : p.Stops rest) {x : Number} :
    read p.negative (t ++ rest) = .ok (x, left) ↔ left = rest ∧ p.Means x := by
  obtain ⟨whole, f, e, rfl, isFraction, hasExponent⟩ := h
  have stop := hasExponent.noDigit stops.digit
  rw [List.append_assoc, List.append_assoc]
  generalize fraction : p.fraction = fs at isFraction
  cases isFraction with
  | some digits =>
      rw [Parts.means_scaled_iff (.inl (fraction ▸ digits.nonempty)), List.cons_append,
        read_of_point p.negative whole, fraction_append _ digits stop, ok_bind, ← fraction]
      exact finish_eq_ok_iff _ hasExponent stops.digit stops.exponent
  | none =>
      have scaled : p.scaled = (wholeScaled p.whole).withExponent p.exponentNegative p.exponent := by
        rw [Parts.scaled, fraction]
        simp [wholeScaled, Scaled.withFraction, gather]
      have point : (e ++ rest).head? ≠ some (ascii '.') := by
        by_cases exponent : p.exponent = []
        · rw [hasExponent.eq_nil exponent]
          exact stops.point fraction exponent
        · exact head?_ne_point (hasExponent.isExponent exponent rest)
      rcases whole_or_scaled p with ⟨-, exponent, below⟩ | isScaled
      · obtain rfl : e = [] := hasExponent.eq_nil exponent
        rw [Parts.means_whole_iff fraction exponent below, List.nil_append,
          read_of_whole p.negative whole stop point (stops.exponent exponent) below]
        split
        · rename_i y meant
          simp [meant, eq_comm, and_comm]
        · rename_i refused
          simp [refused]
      · have other := isScaled.resolve_left fun other => other fraction
        have marked : isExponent (e ++ rest) = true ∨ wordLimit ≤ value p.whole :=
          other.imp_left fun exponent => hasExponent.isExponent exponent rest
        rw [Parts.means_scaled_iff isScaled, scaled, List.nil_append,
          read_of_other p.negative whole stop point marked]
        exact finish_eq_ok_iff _ hasExponent stops.digit stops.exponent

theorem exists_of_finish_eq_ok {negative : Bool} {n : Scaled} {s rest : Bytes} {x : Number}
    (stop : NoDigit s) (h : finish negative n s = .ok (x, rest)) :
    ∃ e exponentNegative ds, s = e ++ rest ∧ IsExponent e exponentNegative ds ∧ NoDigit rest ∧
      (ds = [] → isExponent rest = false ∧ s = rest) := by
  obtain ⟨⟨m, left⟩, read, last⟩ := bind_eq_ok.mp h
  obtain ⟨rfl, -⟩ := float_eq_ok_iff.mp last
  exact exists_of_exponentIfAny_eq_ok stop read

/-- What is read is a numeral. -/
theorem exists_of_read_eq_ok {negative : Bool} {s rest : Bytes} {x : Number}
    (h : read negative s = .ok (x, rest)) :
    ∃ p t, s = t ++ rest ∧ p.negative = negative ∧ IsUnsigned t p ∧ p.Stops rest := by
  obtain ⟨⟨ds, left⟩, first, -⟩ := bind_eq_ok.mp h
  obtain ⟨rfl, whole, stop⟩ := exists_of_whole_eq_ok first
  by_cases point : left.head? = some (ascii '.')
  · obtain ⟨left, rfl⟩ := List.head?_eq_some_iff.mp point
    rw [read_of_point negative whole] at h
    obtain ⟨⟨n, behind⟩, second, third⟩ := bind_eq_ok.mp h
    obtain ⟨fs, rfl, digits, stop, -⟩ := exists_of_fraction_eq_ok second
    obtain ⟨e, exponentNegative, es, rfl, hasExponent, stop, none⟩ :=
      exists_of_finish_eq_ok stop third
    refine ⟨⟨negative, ds, fs, exponentNegative, es⟩, ds ++ (ascii '.' :: fs) ++ e, by simp, rfl,
      ⟨whole, _, _, rfl, .some digits, hasExponent⟩, stop, fun h => (none h).1, fun h => ?_⟩
    exact absurd h digits.nonempty
  · by_cases other : isExponent left = true ∨ wordLimit ≤ value ds
    · rw [read_of_other negative whole stop point other] at h
      obtain ⟨e, exponentNegative, es, rfl, hasExponent, stop, none⟩ := exists_of_finish_eq_ok stop h
      refine ⟨⟨negative, ds, [], exponentNegative, es⟩, ds ++ [] ++ e, by simp, rfl,
        ⟨whole, _, _, rfl, .none, hasExponent⟩, stop, fun h => (none h).1, fun _ h => ?_⟩
      rwa [← (none h).2]
    · obtain ⟨noMark, below⟩ := not_or.mp other
      have exponent : isExponent left = false := by simpa using noMark
      rw [read_of_whole negative whole stop point exponent (Nat.not_le.mp below)] at h
      split at h
      · cases h
        exact ⟨⟨negative, ds, [], false, []⟩, ds ++ [] ++ [], by simp, rfl,
          ⟨whole, _, _, rfl, .none, .none⟩, stop, fun _ => exponent, fun _ _ => point⟩
      · cases h

/-- A number is read exactly from a numeral that stands for it and does not go on. -/
theorem read_eq_ok_iff {negative : Bool} {s rest : Bytes} {x : Number} :
    read negative s = .ok (x, rest) ↔
      ∃ p t, s = t ++ rest ∧ p.negative = negative ∧ IsUnsigned t p ∧ p.Stops rest ∧ p.Means x := by
  constructor
  · intro h
    obtain ⟨p, t, rfl, rfl, isNumeral, stops⟩ := exists_of_read_eq_ok h
    exact ⟨p, t, rfl, rfl, isNumeral, stops, ((read_append_eq_ok_iff isNumeral stops).mp h).2⟩
  · rintro ⟨p, t, rfl, rfl, isNumeral, stops, means⟩
    exact (read_append_eq_ok_iff isNumeral stops).mpr ⟨rfl, means⟩

end RegionApi.Json.Numeral
