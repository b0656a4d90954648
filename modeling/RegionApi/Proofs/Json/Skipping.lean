import RegionApi.Json.Skip
import RegionApi.Proofs.Json.Reading

/-!
# Values are passed over whole

Whatever is spelled as a value is passed over up to what follows it, however deep its brackets are
(`skip_append`). Passing over goes from head to head, with the open brackets on a stack; so what a
value is known by is not that it comes to an end, but that it leads to wherever the way goes on
behind it with the same brackets open (`Skip.passesOver_spells`). For a list this goes by its parts,
and for values by induction on how deep brackets may be.
-/

namespace RegionApi.Json

namespace Skip

open Text (ascii)

variable {s t rest : Bytes}

/-! ## Strings -/

section Strings

/-- Whether a string goes up to a rest. -/
def Passes (s rest : Bytes) : Prop := repeated piece () s = .ok ((), rest)

theorem passes_plain {b : UInt8} (plain : Literal.IsPlain b) (onward : Passes s rest) :
    Passes (b :: s) rest := by
  have step : piece () (b :: s) = .ok (.inl (), s) := by
    rw [piece, if_neg plain.quote, if_neg plain.backslash, if_neg (by simpa using plain.shown)]
  exact repeated_of_go step (Nat.lt_succ_self _) onward

theorem passes_escape (passed : escape s = .ok t) (less : t.length ≤ s.length)
    (onward : Passes t rest) : Passes (ascii '\\' :: s) rest := by
  have other : ascii '\\' ≠ ascii '\x22' := by decide
  have step : piece () (ascii '\\' :: s) = .ok (.inl (), t) := by
    rw [piece, if_neg other, if_pos rfl, passed]
    rfl
  exact repeated_of_go step (Nat.lt_succ_of_le less) onward

theorem passes_unit {ds : Bytes} {n : Nat} (digits : Literal.IsUnit ds n)
    (onward : Passes s rest) : Passes (ascii '\\' :: ascii 'u' :: (ds ++ s)) rest := by
  have other : (Literal.shortEscape? (ascii 'u')).isSome = false := by decide
  refine passes_escape ?_ ?_ onward
  · rw [escape, other, Literal.unit_append digits]
    rfl
  · simp only [List.length_cons, List.length_append]
    omega

/-- Of a pair of surrogates one is passed over after the other. -/
theorem passes_escaped {e : Bytes} {c : Char} (isEscape : Literal.IsEscape e c)
    (onward : Passes s rest) : Passes (ascii '\\' :: (e ++ s)) rest := by
  cases isEscape with
  | short listed =>
      have known := (Literal.shortEscape?_of_listed _ listed).1
      refine passes_escape ?_ (Nat.le_succ _) onward
      rw [List.singleton_append, escape, known]
      rfl
  | units units =>
      cases units with
      | single digits => exact passes_unit digits onward
      | paired first second =>
          have behind := passes_unit first (passes_unit second onward)
          simpa using behind

theorem passes_pieces {m : Bytes} (pieces : Literal.Pieces s m) (rest : Bytes) :
    Passes (s ++ ascii '\x22' :: rest) rest := by
  induction pieces with
  | nil => exact repeated_of_stop rfl
  | plain first others ih => exact passes_plain first ih
  | escaped first others ih =>
      rw [List.cons_append, List.append_assoc]
      exact passes_escaped first ih

theorem string_append {text : List Char} (spelled : Literal.SpellsAll s text) (rest : Bytes) :
    string (s ++ ascii '\x22' :: rest) = .ok rest := by
  rw [string, passes_pieces (Literal.pieces_of_spellsAll spelled) rest]
  rfl

end Strings

/-! ## Numerals -/

section Numerals

open Numeral (AreDigits IsWhole IsSigned IsExponent IsFraction)

theorem whole_append {ds : Bytes} (isWhole : IsWhole ds) (stop : NoDigit rest) :
    whole (ds ++ rest) = .ok rest := by
  obtain ⟨d, t, rfl, digit⟩ := isWhole.digits.exists_cons
  have digits : ∀ e ∈ t, isDigit e = true := fun e he =>
    isWhole.digits.each e (List.mem_cons_of_mem d he)
  rw [List.cons_append, whole, digit]
  by_cases zero : d = ascii '0'
  · obtain rfl : t = [] := (List.cons.inj (isWhole.zero (congrArg some zero))).2
    have last : rest.head?.any isDigit = false := by
      cases rest with
      | nil => rfl
      | cons b rest => exact stop b rfl
    simp [zero, last]
  · simp [zero, Numeral.dropWhile_isDigit digits stop]

theorem exponent_append {ds : Bytes} {negative : Bool} (signed : IsSigned s negative ds)
    (stop : NoDigit rest) : exponent (s ++ rest) = .ok rest := by
  obtain ⟨d, t, digits, digit⟩ := signed.areDigits.exists_cons
  have passed : (t ++ rest).dropWhile isDigit = rest :=
    Numeral.dropWhile_isDigit
      (fun e he => signed.areDigits.each e (digits ▸ List.mem_cons_of_mem d he)) stop
  cases signed with
  | unsigned _ =>
      have minus : d ≠ ascii '-' := fun same => absurd (same ▸ digit) (by decide)
      have plus : d ≠ ascii '+' := fun same => absurd (same ▸ digit) (by decide)
      simp [exponent, digits, minus, plus, digit, passed]
  | plus _ => simp [exponent, digits, digit, passed]
  | minus _ => simp [exponent, digits, digit, passed]

theorem exponentIfAny_append {e ds : Bytes} {negative : Bool}
    (isExponent : IsExponent e negative ds) (ends : Ends rest) :
    exponentIfAny (e ++ rest) = .ok rest ∧ (e ++ rest).head? ≠ some (ascii '.') := by
  cases isExponent with
  | none =>
      rw [List.nil_append, exponentIfAny, ends.exponent, if_neg Bool.false_ne_true]
      exact ⟨rfl, ends.point⟩
  | some marked signed =>
      have mark := (IsExponent.some marked signed).isExponent signed.areDigits.nonempty rest
      rw [exponentIfAny, if_pos mark]
      exact ⟨exponent_append signed ends.digit, Numeral.head?_ne_point mark⟩

theorem numeral_append {p : Numeral.Parts} (isUnsigned : Numeral.IsUnsigned s p)
    (ends : Ends rest) : numeral (s ++ rest) = .ok rest := by
  obtain ⟨isWhole, f, e, rfl, isFraction, isExponent⟩ := isUnsigned
  have stop := isExponent.noDigit ends.digit
  obtain ⟨passed, noPoint⟩ := exponentIfAny_append isExponent ends
  rw [List.append_assoc, List.append_assoc, numeral,
    whole_append isWhole (isFraction.noDigit stop), ok_bind]
  generalize p.fraction = fs at isFraction
  cases isFraction with
  | none => rw [List.nil_append, if_neg noPoint, passed]
  | some digits =>
      have behind := Numeral.dropWhile_isDigit digits.each stop
      obtain ⟨d, t, text, digit⟩ := digits.exists_cons
      have first : (fs ++ (e ++ rest)).head?.any isDigit = true := by
        rw [text]
        exact digit
      rw [List.cons_append, List.head?_cons, if_pos rfl, List.drop_succ_cons, List.drop_zero]
      simp only [first, if_true, behind, passed]

end Numerals

/-! ## From head to head -/

section Heads

/-- Spaces before a head are passed over. -/
theorem head_append {spaces : Bytes} (are : AreSpaces spaces) (s : Bytes) :
    head (spaces ++ s) = head s := by
  rw [head, skipSpaces_append are]
  rfl

theorem head_digit {d : UInt8} (h : isDigit d = true) (s : Bytes) :
    head (d :: s) = (numeral (d :: s)).map fun rest => (none, rest) := by
  have opening : isOpening d = true := by simp [isOpening, h]
  have quote : d ≠ ascii '\x22' := fun same => absurd (same ▸ h) (by decide)
  have minus : d ≠ ascii '-' := fun same => absurd (same ▸ h) (by decide)
  rw [head, skipSpaces_cons (isSpace_of_isClosing (isClosing_of_isOpening opening))]
  simp only [if_neg quote, if_neg minus, if_pos h]

/-- A scalar is all head. -/
theorem head_scalar {v : Json} (scalar : IsScalar s v) (ends : Ends rest) :
    head (s ++ rest) = .ok (none, rest) := by
  cases scalar with
  | null => rfl
  | yes => rfl
  | no => rfl
  | string spelled =>
      obtain ⟨inner, rfl, spelled⟩ := spelled
      have passed := string_append spelled rest
      rw [List.cons_append, List.append_assoc, List.singleton_append]
      show (string (inner ++ ascii '\x22' :: rest)).map _ = _
      rw [passed]
      rfl
  | @number _ p _ spelled =>
      obtain ⟨t, rfl, isUnsigned⟩ := spelled
      have passed := numeral_append isUnsigned ends
      cases p.negative with
      | true =>
          show (numeral (t ++ rest)).map _ = _
          rw [passed]
          rfl
      | false =>
          obtain ⟨whole, f, e, rfl, -⟩ := isUnsigned
          obtain ⟨d, ds, digits, digit⟩ := whole.digits.exists_cons
          rw [digits] at passed ⊢
          simp only [List.cons_append] at passed
          simp only [Bool.false_eq_true, if_false, List.nil_append, List.cons_append,
            head_digit digit, passed]
          rfl

/-- Whether passing over values comes to its end before a rest, if it begins with a value inside
some open brackets. -/
def Leads (stack : List Bracket) (s rest : Bytes) : Prop := repeated step stack s = .ok ([], rest)

/-- Whether it comes there from behind a head. Brackets are closed first; inside those that stay
open a further value follows, behind a name in an object. -/
inductive LeadsOn (behindValue : Bool) (stack : List Bracket) (s rest : Bytes) : Prop
  | ends (closed : unwind behindValue stack s = .ok ([], rest))
  | item {outer : List Bracket} {left : Bytes}
      (closed : unwind behindValue stack s = .ok (.array :: outer, left))
      (shorter : left.length ≤ s.length) (onward : Leads (.array :: outer) left rest)
  | member {outer : List Bracket} {left value : Bytes}
      (closed : unwind behindValue stack s = .ok (.object :: outer, left))
      (shorter : left.length ≤ s.length) (named : name left = .ok value)
      (behind : value.length ≤ left.length) (onward : Leads (.object :: outer) value rest)

theorem leads_of_head {stack : List Bracket} {opened : Option Bracket}
    (passed : head s = .ok (opened, t)) (less : t.length < s.length)
    (onward : LeadsOn opened.isNone (opened.toList ++ stack) t rest) : Leads stack s rest := by
  cases onward with
  | ends closed =>
      refine repeated_of_stop ?_
      rw [step, passed, ok_bind]
      simp only [closed, ok_bind]
      rfl
  | @item outer left closed shorter onward =>
      have goes : step stack s = .ok (.inl (.array :: outer), left) := by
        rw [step, passed, ok_bind]
        simp only [closed, ok_bind]
        rfl
      exact repeated_of_go goes (Nat.lt_of_le_of_lt shorter less) onward
  | @member outer left value closed shorter named behind onward =>
      have goes : step stack s = .ok (.inl (.object :: outer), value) := by
        rw [step, passed, ok_bind]
        simp only [closed, ok_bind, named]
        rfl
      exact repeated_of_go goes (by omega) onward

end Heads

/-! ## Brackets -/

section Brackets

variable {top : Bracket} {stack : List Bracket} {spaces : Bytes}

theorem isClosing_closing (top : Bracket) : isClosing top.closing = true := by
  cases top <;> decide

/-- A bracket is closed, whether a value comes before it or not. -/
theorem unwind_closing (behindValue : Bool) (are : AreSpaces spaces) (s : Bytes) :
    unwind behindValue (top :: stack) (spaces ++ top.closing :: s) = unwind true stack s := by
  have space : isSpace top.closing = false := by cases top <;> decide
  have comma : top.closing ≠ ascii ',' := by cases top <;> decide
  rw [unwind, skipSpaces_token are space]
  simp only [comma, decide_false, Bool.and_false, Bool.false_eq_true, if_false, if_true]

theorem unwind_comma (are : AreSpaces spaces) (s : Bytes) :
    unwind true (top :: stack) (spaces ++ ascii ',' :: s) = .ok (top :: stack, s) := by
  rw [unwind, skipSpaces_token are (by decide)]
  simp only [decide_true, Bool.and_self, if_true]

/-- What is no closing byte is left standing behind an opening bracket. -/
theorem unwind_first {b : UInt8} (are : AreSpaces spaces) (closing : isClosing b = false)
    (s : Bytes) : unwind false (top :: stack) (spaces ++ b :: s) = .ok (top :: stack, b :: s) := by
  have other : b ≠ top.closing := fun same => by
    rw [same, isClosing_closing] at closing
    cases closing
  rw [unwind, skipSpaces_token are (isSpace_of_isClosing closing)]
  simp only [Bool.false_and, Bool.false_eq_true, if_false, if_neg other]

theorem leadsOn_closing (behindValue : Bool) (are : AreSpaces spaces)
    (onward : LeadsOn true stack t rest) :
    LeadsOn behindValue (top :: stack) (spaces ++ top.closing :: t) rest := by
  have longer : t.length ≤ (spaces ++ top.closing :: t).length := by
    simp only [List.length_append, List.length_cons]
    omega
  have closing : unwind behindValue (top :: stack) (spaces ++ top.closing :: t) =
      unwind true stack t := unwind_closing behindValue are t
  cases onward with
  | ends closed => exact .ends (closing.trans closed)
  | item closed shorter onward =>
      exact .item (closing.trans closed) (Nat.le_trans shorter longer) onward
  | member closed shorter named behind onward =>
      exact .member (closing.trans closed) (Nat.le_trans shorter longer) named behind onward

/-- Whether parts of a list inside a bracket lead on to what follows them: the first behind the
opening bracket, and every further one behind a comma. -/
structure LeadsThrough {α : Type} (top : Bracket) (part : Bytes → α → Prop) : Prop where
  first {s t rest : Bytes} {stack : List Bracket} {a : α} : part s a → Ends t →
    LeadsOn true (top :: stack) t rest → LeadsOn false (top :: stack) (s ++ t) rest
  further {before s t rest : Bytes} {stack : List Bracket} {a : α} : AreSpaces before →
    part s a → Ends t → LeadsOn true (top :: stack) t rest →
    LeadsOn true (top :: stack) (before ++ ascii ',' :: (s ++ t)) rest

section Lists

variable {α : Type} {part : Bytes → α → Prop} {as : List α}

theorem LeadsThrough.leadsOn_further (h : LeadsThrough top part) (others : Further part s as)
    (are : AreSpaces spaces) (onward : LeadsOn true stack t rest) :
    LeadsOn true (top :: stack) (s ++ (spaces ++ top.closing :: t)) rest := by
  induction others with
  | nil => exact leadsOn_closing true are onward
  | @cons before u s a as areBefore first others ih =>
      have ends := others.ends are (isClosing_closing top) t
      have leads := h.further areBefore first ends ih
      simpa using leads

/-- The brackets of a list lead to what follows them. -/
theorem LeadsThrough.leadsOn_listed (h : LeadsThrough top part) (listed : Listed part s as)
    (are : AreSpaces spaces) (onward : LeadsOn true stack t rest) :
    LeadsOn false (top :: stack) (s ++ (spaces ++ top.closing :: t)) rest := by
  cases listed with
  | nil => exact leadsOn_closing false are onward
  | cons first others =>
      have ends := others.ends are (isClosing_closing top) t
      rw [List.append_assoc]
      exact h.first first ends (h.leadsOn_further others are onward)

end Lists

end Brackets

/-! ## Values -/

section Values

/-- Whether values of a part of the grammar lead to wherever the way goes on behind them. -/
structure PassesOver (part : Bytes → Json → Prop) : Prop where
  opening {s : Bytes} {v : Json} : part s v → ∃ b t, s = b :: t ∧ isOpening b = true
  leads {spaces s t rest : Bytes} {v : Json} {stack : List Bracket} : AreSpaces spaces →
    part s v → Ends t → LeadsOn true stack t rest → Leads stack (spaces ++ (s ++ t)) rest

variable {part : Bytes → Json → Prop}

theorem PassesOver.leads_spaced (h : PassesOver part) {v : Json} {stack : List Bracket}
    (spaced : Spaced part s v) (ends : Ends t) (onward : LeadsOn true stack t rest) :
    Leads stack (s ++ t) rest := by
  obtain ⟨are, isPart⟩ := spaced
  rw [List.append_assoc]
  exact h.leads are isPart ends onward

theorem PassesOver.leadsThrough_items (h : PassesOver part) :
    LeadsThrough .array (Spaced part) where
  first := by
    rintro _ t rest stack v ⟨are, isPart⟩ ends onward
    have leads := h.leads areSpaces_nil isPart ends onward
    obtain ⟨b, u, rfl, opening⟩ := h.opening isPart
    rw [List.append_assoc]
    refine .item (unwind_first are (isClosing_of_isOpening opening) _) ?_ leads
    exact (List.suffix_append _ _).length_le
  further := by
    intro before s t rest stack v areBefore spaced ends onward
    refine .item (unwind_comma areBefore _) ?_ (h.leads_spaced spaced ends onward)
    simp only [List.length_append, List.length_cons]
    omega

/-- A name is passed over with its colon. -/
theorem name_append {before letters gap : Bytes} {text : List Char} (areBefore : AreSpaces before)
    (spelled : Literal.SpellsAll letters text) (are : AreSpaces gap) (s : Bytes) :
    name (before ++ ascii '\x22' :: (letters ++ ascii '\x22' :: (gap ++ ascii ':' :: s))) =
      .ok s := by
  rw [name, skipSpaces_token areBefore (by decide)]
  simp only [if_true, string_append spelled, ok_bind, colon_append are]

theorem append_member (letters gap u t : Bytes) :
    ascii '\x22' :: (letters ++ ascii '\x22' :: (gap ++ ascii ':' :: u)) ++ t =
      ascii '\x22' :: (letters ++ ascii '\x22' :: (gap ++ ascii ':' :: (u ++ t))) := by
  simp

theorem PassesOver.leadsThrough_members (h : PassesOver part) :
    LeadsThrough .object (Spaced (IsMember part)) where
  first := by
    rintro _ t rest stack m ⟨are, isMember⟩ ends onward
    obtain ⟨letters, gap, u, rfl, spelled, areGap, value⟩ := isMember_iff.mp isMember
    have named := name_append areSpaces_nil spelled areGap (u ++ t)
    rw [List.append_assoc, append_member]
    refine .member (unwind_first are (by decide) _) (List.suffix_append _ _).length_le named ?_
      (h.leads_spaced value ends onward)
    simp only [List.length_append, List.length_cons]
    omega
  further := by
    rintro before _ t rest stack m areBefore ⟨are, isMember⟩ ends onward
    obtain ⟨letters, gap, u, rfl, spelled, areGap, value⟩ := isMember_iff.mp isMember
    have named := name_append are spelled areGap (u ++ t)
    rw [List.append_assoc, append_member]
    refine .member (unwind_comma areBefore _) ?_ named ?_ (h.leads_spaced value ends onward)
    · simp only [List.length_append, List.length_cons]
      omega
    · simp only [List.length_append, List.length_cons]
      omega

theorem leads_scalar {spaces : Bytes} {v : Json} {stack : List Bracket} (are : AreSpaces spaces)
    (scalar : IsScalar s v) (ends : Ends t) (onward : LeadsOn true stack t rest) :
    Leads stack (spaces ++ (s ++ t)) rest := by
  have passed := (head_append are (s ++ t)).trans (head_scalar scalar ends)
  obtain ⟨b, u, rfl, -⟩ := scalar.exists_opening
  refine leads_of_head passed ?_ onward
  simp only [List.length_append, List.length_cons]
  omega

theorem PassesOver.leads_bracketed (h : PassesOver part) {spaces : Bytes} {v : Json}
    {stack : List Bracket} (are : AreSpaces spaces) (bracketed : IsBracketed part s v)
    (onward : LeadsOn true stack t rest) : Leads stack (spaces ++ (s ++ t)) rest := by
  cases bracketed with
  | @array s gap items listed areGap =>
      have inside := h.leadsThrough_items.leadsOn_listed listed areGap onward
      have opened : head (ascii '[' :: (s ++ (gap ++ ascii ']' :: t))) =
          .ok (some .array, s ++ (gap ++ ascii ']' :: t)) := rfl
      rw [append_bracketed]
      refine leads_of_head ((head_append are _).trans opened) ?_ inside
      simp only [List.length_append, List.length_cons]
      omega
  | @object s gap members fields listed areGap =>
      have inside := h.leadsThrough_members.leadsOn_listed listed areGap onward
      have opened : head (ascii '\x7b' :: (s ++ (gap ++ ascii '\x7d' :: t))) =
          .ok (some .object, s ++ (gap ++ ascii '\x7d' :: t)) := rfl
      rw [append_bracketed]
      refine leads_of_head ((head_append are _).trans opened) ?_ inside
      simp only [List.length_append, List.length_cons]
      omega

/-- However deep their brackets may be, values lead to wherever the way goes on behind them. -/
theorem passesOver_spells (depth : Nat) : PassesOver (Spells depth) := by
  induction depth with
  | zero => exact ⟨IsScalar.exists_opening, fun are scalar => leads_scalar are scalar⟩
  | succ depth ih =>
      refine ⟨(reads_value (depth + 1)).opening, ?_⟩
      rintro spaces s t rest v stack are (scalar | bracketed) ends onward
      · exact leads_scalar are scalar ends onward
      · exact ih.leads_bracketed are bracketed onward

end Values

end Skip

/-- A value is passed over up to what follows it. -/
theorem skip_append {depth : Nat} {s rest : Bytes} {v : Json} (spaced : Spaced (Spells depth) s v)
    (ends : Ends rest) : skip (s ++ rest) = .ok rest := by
  have leads : Skip.Leads [] (s ++ rest) rest :=
    (Skip.passesOver_spells depth).leads_spaced spaced ends (.ends rfl)
  rw [skip, leads]
  rfl

end RegionApi.Json
