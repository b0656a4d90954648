import RegionApi.Json.Printer
import RegionApi.Proofs.Json.Reading

/-!
# Compact texts are texts of their values

A value whose numbers are all whole is read back from its compact text (`parse_text`), provided the
members of its objects are in order and its brackets are not too deep. Arrays and objects are printed
like the grammar lists them, whatever their items are printed as (`further_items`,
`further_members`), so the rest is induction on the depth.
-/

namespace RegionApi.Json

open Text (ascii utf8Chars)

/-- Whether no number within a value is a fraction or was rounded. -/
inductive IsExact : Json → Prop
  | null : IsExact null
  | bool (b : Bool) : IsExact (bool b)
  | integer (i : Integer) : IsExact (number (.integer i))
  | string (s : String) : IsExact (string s)
  | array {items : List Json} (each : ∀ v ∈ items, IsExact v) : IsExact (array items)
  | object {members : List (String × Json)} (each : ∀ m ∈ members, IsExact m.2) :
      IsExact (object members)

theorem utf8Chars_cons_ascii {c : Char} (h : c.toNat < 0x80) (cs : List Char) :
    utf8Chars (c :: cs) = ascii c :: utf8Chars cs := by
  rw [Text.utf8Chars_cons, Text.utf8EncodeChar_eq_ascii h]
  rfl

/-! ## Strings -/

/-- The escape of four digits that a control character may have. -/
theorem isUnit_of_control : ∀ n < 0x20,
    let digits := Text.hexadecimal n
    Literal.IsUnit (utf8Chars (List.replicate (4 - digits.length) '0' ++ digits)) n := by
  intro n small
  constructor
  · revert n
    decide
  · revert n
    decide

theorem spells_of_listed {letter c : Char} (listed : (letter, c) ∈ Literal.shortEscapes) :
    Literal.Spells (utf8Chars ['\\', letter]) c := by
  have small : ∀ p ∈ Literal.shortEscapes, p.1.toNat < 0x80 := by decide
  have text : utf8Chars ['\\', letter] = [ascii '\\', ascii letter] := by
    rw [utf8Chars_cons_ascii (by decide), utf8Chars_cons_ascii (small _ listed), Text.utf8Chars_nil]
  rw [text]
  exact .escaped (.short listed)

/-- A character is spelled as it is printed. -/
theorem spells_escaped (c : Char) : Literal.Spells (utf8Chars (escaped c)) c := by
  unfold escaped
  repeat' split
  any_goals
    rename_i same
    subst same
    exact spells_of_listed (by decide)
  · rename_i control
    have digits := isUnit_of_control c.toNat control
    simp only [List.cons_append, List.nil_append]
    rw [utf8Chars_cons_ascii (by decide), utf8Chars_cons_ascii (by decide)]
    exact .escaped (.units (.single digits))
  · rename_i quote backslash _ _ _ _ _ shown
    rw [Text.utf8Chars_cons, Text.utf8Chars_nil, List.append_nil]
    exact .plain (Nat.not_lt.mp shown) quote backslash

theorem spellsAll_escaped (cs : List Char) :
    Literal.SpellsAll (utf8Chars (cs.flatMap escaped)) cs := by
  induction cs with
  | nil => exact .nil
  | cons c cs ih =>
      rw [List.flatMap_cons, Text.utf8Chars_append]
      exact .cons (spells_escaped c) ih

theorem isString_stringChars (s : String) : Literal.IsString (utf8Chars (stringChars s)) s := by
  refine ⟨_, ?_, spellsAll_escaped s.toList⟩
  rw [stringChars, List.cons_append, utf8Chars_cons_ascii (by decide), Text.utf8Chars_append]
  rfl

/-! ## Whole numbers -/

/-- What is known of a single digit. -/
theorem digit_of_lt : ∀ d < 10, d.digitChar.toNat < 0x80 ∧ isDigit (ascii d.digitChar) = true ∧
    digitValue (ascii d.digitChar) = d ∧ (ascii d.digitChar = ascii '0' → d = 0) := by decide

/-- The bytes of the digits of a number. -/
def digitBytes (n : Nat) : Bytes := utf8Chars (Text.decimal n)

theorem utf8Chars_digitChar {d : Nat} (small : d < 10) :
    utf8Chars [d.digitChar] = [ascii d.digitChar] := by
  rw [utf8Chars_cons_ascii (digit_of_lt d small).1, Text.utf8Chars_nil]

theorem digitBytes_of_lt {n : Nat} (small : n < 10) : digitBytes n = [ascii n.digitChar] := by
  rw [digitBytes, Text.decimal, Nat.toDigits_eq_if (by decide), if_pos small,
    utf8Chars_digitChar small]

theorem digitBytes_of_le {n : Nat} (great : 10 ≤ n) :
    digitBytes n = digitBytes (n / 10) ++ [ascii (n % 10).digitChar] := by
  rw [digitBytes, Text.decimal, Nat.toDigits_eq_if (by decide), if_neg (Nat.not_lt.mpr great),
    Text.utf8Chars_append, utf8Chars_digitChar (Nat.mod_lt n (by decide))]
  rfl

/-- A number is what its digits make. -/
theorem value_digitBytes (n : Nat) : Numeral.value (digitBytes n) = n := by
  induction n using Nat.strongRecOn with
  | ind n ih =>
      rcases Nat.lt_or_ge n 10 with small | great
      · rw [digitBytes_of_lt small, Numeral.value, List.foldl_cons, List.foldl_nil,
          (digit_of_lt n small).2.2.1]
        simp
      · have initial := ih (n / 10) (Nat.div_lt_self (by omega) (by decide))
        rw [Numeral.value] at initial
        rw [digitBytes_of_le great, Numeral.value, List.foldl_append, initial, List.foldl_cons,
          List.foldl_nil, (digit_of_lt (n % 10) (Nat.mod_lt n (by decide))).2.2.1]
        exact Nat.div_add_mod n 10

/-- What the digits of a number are, and what they begin with. -/
theorem isWhole_digitBytes (n : Nat) : Numeral.IsWhole (digitBytes n) := by
  induction n using Nat.strongRecOn with
  | ind n ih =>
      rcases Nat.lt_or_ge n 10 with small | great
      · obtain ⟨-, digit, -, zero⟩ := digit_of_lt n small
        rw [digitBytes_of_lt small]
        refine ⟨⟨List.cons_ne_nil _ _, fun d hd => ?_⟩, fun first => ?_⟩
        · rw [List.mem_singleton.mp hd]
          exact digit
        · rw [Option.some.inj first]
      · obtain ⟨⟨nonempty, each⟩, zero⟩ := ih (n / 10) (Nat.div_lt_self (by omega) (by decide))
        obtain ⟨-, digit, -⟩ := digit_of_lt (n % 10) (Nat.mod_lt n (by decide))
        rw [digitBytes_of_le great]
        refine ⟨⟨List.append_ne_nil_of_left_ne_nil nonempty _, fun d hd => ?_⟩, fun first => ?_⟩
        · rcases List.mem_append.mp hd with hd | hd
          · exact each d hd
          · rw [List.mem_singleton.mp hd]
            exact digit
        · -- Only zero begins so, and what stands before the last digit is not zero.
          rw [List.head?_append_of_ne_nil _ nonempty] at first
          have value := value_digitBytes (n / 10)
          rw [zero first] at value
          have none : n / 10 = 0 := value.symm
          omega

/-- An integer is read back from its sign and its magnitude. -/
theorem ofInteger?_natAbs (i : Integer) :
    Number.ofInteger? (decide (i.value < 0)) i.value.natAbs = some (.integer i) := by
  obtain ⟨i, lower, upper⟩ := i
  rw [Number.ofInteger?]
  by_cases negative : i < 0
  · have nonzero : i.natAbs ≠ 0 := by omega
    have fits : i.natAbs ≤ 0x8000000000000000 := by omega
    have same : -(i.natAbs : Int) = i := by omega
    have exact : Integer.ofNegated? i.natAbs = some ⟨i, lower, upper⟩ := by
      simp only [Integer.ofNegated?, dif_pos fits, same]
    simp only [negative, decide_true, if_true, if_neg nonzero, exact]
  · have fits : i.natAbs < 0x10000000000000000 := by omega
    have same : (i.natAbs : Int) = i := by omega
    have exact : Integer.ofNat? i.natAbs = some ⟨i, lower, upper⟩ := by
      simp only [Integer.ofNat?, dif_pos fits, same]
    simp only [negative, decide_false, Bool.false_eq_true, if_false, exact]

theorem chars_eq (i : Integer) : i.chars =
    (if i.value < 0 then ['-'] else []) ++ Text.decimal i.value.natAbs := by
  rw [Integer.chars]
  split
  · rename_i negative
    have magnitude : (-i.value).toNat = i.value.natAbs := by omega
    rw [magnitude]
    rfl
  · rename_i notNegative
    have magnitude : i.value.toNat = i.value.natAbs := by omega
    rw [magnitude]
    rfl

/-- An integer is a numeral that stands for it. -/
theorem isScalar_integer (i : Integer) : IsScalar (utf8Chars i.chars) (number (.integer i)) := by
  have isNumeral : Numeral.IsNumeral (utf8Chars i.chars)
      ⟨decide (i.value < 0), digitBytes i.value.natAbs, [], false, []⟩ := by
    refine ⟨digitBytes i.value.natAbs, ?_,
      ⟨isWhole_digitBytes i.value.natAbs, [], [], by simp, .none, .none⟩⟩
    rw [chars_eq, Text.utf8Chars_append, digitBytes]
    by_cases negative : i.value < 0
    · simp only [negative, if_true, decide_true]
      rfl
    · simp only [negative, if_false, decide_false, Bool.false_eq_true]
      rfl
  have below : i.value.natAbs < Numeral.wordLimit := by
    obtain ⟨i, lower, upper⟩ := i
    simp only [Numeral.wordLimit]
    omega
  refine .number isNumeral (.whole rfl rfl ?_ ?_)
  · rw [value_digitBytes]
    exact below
  · rw [value_digitBytes]
    exact ofInteger?_natAbs i

/-! ## Lists -/

section Lists

variable {part : Bytes → Json → Prop}

theorem further_items {vs : List Json} (each : ∀ v ∈ vs, part (utf8Chars v.chars) v) :
    Further (Spaced part) (utf8Chars (furtherItems vs)) vs := by
  induction vs with
  | nil => exact .nil
  | cons v vs ih =>
      rw [furtherItems, List.cons_append, utf8Chars_cons_ascii (by decide), Text.utf8Chars_append]
      exact .cons areSpaces_nil (spaced_of_part (each v List.mem_cons_self))
        (ih fun w hw => each w (List.mem_cons_of_mem v hw))

theorem isMember_printed (name : String) {v : Json} (value : part (utf8Chars v.chars) v) :
    IsMember part (utf8Chars (stringChars name ++ ':' :: v.chars)) (name, v) := by
  rw [Text.utf8Chars_append, utf8Chars_cons_ascii (by decide)]
  exact .mk (isString_stringChars name) areSpaces_nil (spaced_of_part value)

theorem further_members {ms : List (String × Json)}
    (each : ∀ m ∈ ms, part (utf8Chars m.2.chars) m.2) :
    Further (Spaced (IsMember part)) (utf8Chars (furtherMembers ms)) ms := by
  induction ms with
  | nil => exact .nil
  | cons m ms ih =>
      obtain ⟨name, v⟩ := m
      have first := isMember_printed name (each (name, v) List.mem_cons_self)
      have others := ih fun n hn => each n (List.mem_cons_of_mem _ hn)
      have text : furtherMembers ((name, v) :: ms) =
          ',' :: ((stringChars name ++ ':' :: v.chars) ++ furtherMembers ms) := by
        simp [furtherMembers]
      rw [text, utf8Chars_cons_ascii (by decide), Text.utf8Chars_append]
      exact .cons areSpaces_nil (spaced_of_part first) others

/-- An array is printed as the grammar lists its items. -/
theorem exists_listed_array {vs : List Json} (each : ∀ v ∈ vs, part (utf8Chars v.chars) v) :
    ∃ s, utf8Chars (array vs).chars = ascii '[' :: (s ++ ([] ++ [ascii ']'])) ∧
      Listed (Spaced part) s vs := by
  cases vs with
  | nil => exact ⟨[], by rw [chars]; decide, .nil⟩
  | cons v vs =>
      refine ⟨utf8Chars v.chars ++ utf8Chars (furtherItems vs), ?_,
        .cons (spaced_of_part (each v List.mem_cons_self))
          (further_items fun w hw => each w (List.mem_cons_of_mem v hw))⟩
      rw [chars, List.cons_append, List.cons_append, utf8Chars_cons_ascii (by decide),
        Text.utf8Chars_append, Text.utf8Chars_append]
      rfl

/-- An object is printed as the grammar lists its members. -/
theorem exists_listed_object {ms : List (String × Json)}
    (each : ∀ m ∈ ms, part (utf8Chars m.2.chars) m.2) :
    ∃ s, utf8Chars (object ms).chars = ascii '\x7b' :: (s ++ ([] ++ [ascii '\x7d'])) ∧
      Listed (Spaced (IsMember part)) s ms := by
  cases ms with
  | nil => exact ⟨[], by rw [chars]; decide, .nil⟩
  | cons m ms =>
      obtain ⟨name, v⟩ := m
      have first := isMember_printed name (each (name, v) List.mem_cons_self)
      refine ⟨utf8Chars (stringChars name ++ ':' :: v.chars) ++ utf8Chars (furtherMembers ms), ?_,
        .cons (spaced_of_part first)
          (further_members fun n hn => each n (List.mem_cons_of_mem _ hn))⟩
      have text : (object ((name, v) :: ms)).chars =
          '\x7b' :: ((stringChars name ++ ':' :: v.chars) ++ (furtherMembers ms ++ ['\x7d'])) := by
        simp [chars]
      rw [text, utf8Chars_cons_ascii (by decide), Text.utf8Chars_append _ (furtherMembers ms ++ _),
        Text.utf8Chars_append (furtherMembers ms), ← List.append_assoc]
      rfl

end Lists

/-! ## Values -/

theorem depth_le_depthOfItems {v : Json} {vs : List Json} (h : v ∈ vs) :
    v.depth ≤ depthOfItems vs := by
  induction vs with
  | nil => cases h
  | cons w vs ih =>
      rw [depthOfItems]
      rcases List.mem_cons.mp h with rfl | h
      · exact Nat.le_max_left _ _
      · exact Nat.le_trans (ih h) (Nat.le_max_right _ _)

theorem depth_le_depthOfMembers {m : String × Json} {ms : List (String × Json)} (h : m ∈ ms) :
    m.2.depth ≤ depthOfMembers ms := by
  induction ms with
  | nil => cases h
  | cons n ms ih =>
      rw [depthOfMembers]
      rcases List.mem_cons.mp h with rfl | h
      · exact Nat.le_max_left _ _
      · exact Nat.le_trans (ih h) (Nat.le_max_right _ _)

theorem isScalar_bool (b : Bool) : IsScalar (utf8Chars (bool b).chars) (bool b) := by
  cases b with
  | true => exact .yes
  | false => exact .no

/-- A value is spelled by its compact text. -/
theorem spells_chars {d : Nat} {v : Json} (exact : IsExact v) (canonical : IsCanonical v)
    (shallow : v.depth ≤ d) : Spells d (utf8Chars v.chars) v := by
  induction d generalizing v with
  | zero =>
      cases exact with
      | null => exact .null
      | bool b => exact isScalar_bool b
      | integer i => exact isScalar_integer i
      | string s => exact .string (isString_stringChars s)
      | array => exact absurd shallow (by simp [depth])
      | object => exact absurd shallow (by simp [depth])
  | succ d ih =>
      cases exact with
      | null => exact .inl .null
      | bool b => exact .inl (isScalar_bool b)
      | integer i => exact .inl (isScalar_integer i)
      | string s => exact .inl (.string (isString_stringChars s))
      | @array items each =>
          cases canonical with
          | array canonical =>
              have inner (v : Json) (hv : v ∈ items) : Spells d (utf8Chars v.chars) v := by
                refine ih (each v hv) (canonical v hv) ?_
                exact Nat.le_trans (depth_le_depthOfItems hv) (Nat.le_of_succ_le_succ shallow)
              obtain ⟨s, text, listed⟩ := exists_listed_array inner
              rw [text]
              exact .inr (.array listed areSpaces_nil)
      | @object members each =>
          cases canonical with
          | object order canonical =>
              have inner (m : String × Json) (hm : m ∈ members) :
                  Spells d (utf8Chars m.2.chars) m.2 := by
                refine ih (each m hm) (canonical m hm) ?_
                exact Nat.le_trans (depth_le_depthOfMembers hm) (Nat.le_of_succ_le_succ shallow)
              obtain ⟨s, text, listed⟩ := exists_listed_object inner
              rw [text]
              exact .inr (.object listed areSpaces_nil order order.find?_reverse)

/-- A value is read back from its compact text. -/
theorem isText_text {v : Json} (exact : IsExact v) (canonical : IsCanonical v)
    (shallow : v.depth ≤ 127) : IsText (Text.utf8 v.text) v := by
  refine ⟨utf8Chars v.chars, [], ?_, spaced_of_part (spells_chars exact canonical shallow),
    areSpaces_nil⟩
  rw [Text.utf8, text, String.toList_ofList, List.append_nil]

/-- An object whose members are scalars is read back from its compact text, in whichever order they
are printed. -/
theorem exists_isText_object {ms : List (String × Json)}
    (scalars : ∀ m ∈ ms, IsScalar (utf8Chars m.2.chars) m.2) :
    ∃ fields, IsText (Text.utf8 (object ms).text) (.object fields) ∧
      ∀ name, find? name fields = find? name ms.reverse := by
  -- One level of brackets is taken, and the values within have none.
  have each : ∀ m ∈ ms, Spells 126 (utf8Chars m.2.chars) m.2 := fun m hm => .inl (scalars m hm)
  obtain ⟨s, text, listed⟩ := exists_listed_object each
  have last (name : String) :
      find? name ((ms.foldl pushMember none).getD []) = find? name ms.reverse := by
    rw [find?_foldl_pushMember]
    exact Option.or_none
  have spelled : Spells 127 (utf8Chars (object ms).chars)
      (object ((ms.foldl pushMember none).getD [])) := by
    rw [text]
    exact .inr (.object listed areSpaces_nil (ascending_foldl_pushMember ms ascending_nil) last)
  refine ⟨_, ⟨utf8Chars (object ms).chars, [], ?_, spaced_of_part spelled, areSpaces_nil⟩, last⟩
  rw [Text.utf8, Json.text, String.toList_ofList, List.append_nil]

end RegionApi.Json
