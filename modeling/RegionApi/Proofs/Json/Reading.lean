import RegionApi.Proofs.Json.Members
import RegionApi.Proofs.Json.Scalar

/-!
# Texts are read as the grammar has them

A text is read exactly if it is a text of some value, and as that value (`parse_eq_ok_iff`). Each
reader reads all that its part of the grammar spells, whatever comes behind it, and nothing else;
for values this goes by induction on how deep brackets may be.
-/

namespace RegionApi.Json

open Text (ascii)

/-! ## Values inside brackets -/

/-- Whether a reader reads what a part of the grammar spells, and nothing else. -/
structure Reads (part : Bytes → Json → Prop) (read : Reader Json) : Prop where
  opening {s : Bytes} {v : Json} : part s v → ∃ b t, s = b :: t ∧ isOpening b = true
  all {spaces s rest : Bytes} {v : Json} : AreSpaces spaces → part s v → Ends rest →
    read (spaces ++ (s ++ rest)) = .ok (v, rest)
  only {s rest : Bytes} {v : Json} : read s = .ok (v, rest) → ∃ t, s = t ++ rest ∧ Spaced part t v

theorem Reads.spaced {part : Bytes → Json → Prop} {read : Reader Json} (h : Reads part read)
    {s rest : Bytes} {v : Json} (spaced : Spaced part s v) (ends : Ends rest) :
    read (s ++ rest) = .ok (v, rest) := by
  obtain ⟨are, isPart⟩ := spaced
  rw [List.append_assoc]
  exact h.all are isPart ends

/-! ## Between values -/

section NextItem

variable {spaces s rest : Bytes} {b : UInt8}

theorem nextItem_close (first : Bool) (are : AreSpaces spaces) :
    nextItem first (spaces ++ ascii ']' :: s) = .ok (false, ascii ']' :: s) := by
  rw [nextItem, skipSpaces_token are (by decide)]
  simp only [if_true]

theorem nextItem_first (are : AreSpaces spaces) (opening : isOpening b = true) :
    nextItem true (spaces ++ b :: s) = .ok (true, b :: s) := by
  have closing := isClosing_of_isOpening opening
  have other : b ≠ ascii ']' := fun same => absurd (same ▸ closing) (by decide)
  rw [nextItem, skipSpaces_token are (isSpace_of_isClosing closing)]
  simp only [if_neg other, if_true]

theorem nextItem_further {more : Bytes} (are : AreSpaces spaces) (areMore : AreSpaces more)
    (opening : isOpening b = true) :
    nextItem false (spaces ++ ascii ',' :: (more ++ b :: s)) = .ok (true, b :: s) := by
  have closing := isClosing_of_isOpening opening
  have other : b ≠ ascii ']' := fun same => absurd (same ▸ closing) (by decide)
  rw [nextItem, skipSpaces_token are (by decide)]
  simp +decide only [if_false, if_true, skipSpaces_token areMore (isSpace_of_isClosing closing),
    if_neg other]

theorem exists_of_nextItem_close {first : Bool} (h : nextItem first s = .ok (false, rest)) :
    ∃ spaces t, s = spaces ++ rest ∧ AreSpaces spaces ∧ rest = ascii ']' :: t := by
  obtain ⟨spaces, text, are⟩ := exists_spaces s
  rw [nextItem] at h
  split at h
  · cases h
  · rename_i b t left
    rw [left] at text
    split at h
    · rename_i close
      cases h
      exact ⟨spaces, t, text, are, by rw [close]⟩
    split at h
    · cases h
    split at h
    · split at h
      · cases h
      · split at h <;> cases h
    · cases h

theorem exists_of_nextItem_first (h : nextItem true s = .ok (true, rest)) :
    ∃ spaces, s = spaces ++ rest ∧ AreSpaces spaces := by
  obtain ⟨spaces, text, are⟩ := exists_spaces s
  rw [nextItem] at h
  split at h
  · cases h
  · rename_i b t left
    rw [left] at text
    split at h
    · cases h
    · cases h
      exact ⟨spaces, text, are⟩

theorem exists_of_nextItem_further (h : nextItem false s = .ok (true, rest)) :
    ∃ spaces more, s = spaces ++ ascii ',' :: (more ++ rest) ∧ AreSpaces spaces ∧
      AreSpaces more := by
  obtain ⟨spaces, text, are⟩ := exists_spaces s
  rw [nextItem] at h
  split at h
  · cases h
  · rename_i b t left
    rw [left] at text
    split at h
    · cases h
    split at h
    · rename_i impossible
      cases impossible
    split at h
    · rename_i comma
      obtain ⟨more, text', areMore⟩ := exists_spaces t
      split at h
      · cases h
      · rename_i c u left'
        split at h
        · cases h
        · cases h
          exact ⟨spaces, more, by rw [text, comma, text', left'], are, areMore⟩
    · cases h

end NextItem

section NextName

variable {spaces s rest : Bytes}

theorem nextName_close (first : Bool) (are : AreSpaces spaces) :
    nextName first (spaces ++ ascii '\x7d' :: s) = .ok (false, ascii '\x7d' :: s) := by
  rw [nextName, skipSpaces_token are (by decide)]
  simp only [if_true]

theorem nextName_first (are : AreSpaces spaces) :
    nextName true (spaces ++ ascii '\x22' :: s) = .ok (true, s) := by
  rw [nextName, skipSpaces_token are (by decide)]
  simp +decide only [if_false, if_true]

theorem nextName_further {more : Bytes} (are : AreSpaces spaces) (areMore : AreSpaces more) :
    nextName false (spaces ++ ascii ',' :: (more ++ ascii '\x22' :: s)) = .ok (true, s) := by
  rw [nextName, skipSpaces_token are (by decide)]
  simp +decide only [if_false, if_true, skipSpaces_token areMore]

theorem exists_of_nextName_close {first : Bool} (h : nextName first s = .ok (false, rest)) :
    ∃ spaces t, s = spaces ++ rest ∧ AreSpaces spaces ∧ rest = ascii '\x7d' :: t := by
  obtain ⟨spaces, text, are⟩ := exists_spaces s
  rw [nextName] at h
  split at h
  · cases h
  · rename_i b t left
    rw [left] at text
    split at h
    · rename_i close
      cases h
      exact ⟨spaces, t, text, are, by rw [close]⟩
    split at h
    · split at h <;> cases h
    split at h
    · split at h
      · cases h
      split at h
      · cases h
      · split at h <;> cases h
    · cases h

theorem exists_of_nextName_first (h : nextName true s = .ok (true, rest)) :
    ∃ spaces, s = spaces ++ ascii '\x22' :: rest ∧ AreSpaces spaces := by
  obtain ⟨spaces, text, are⟩ := exists_spaces s
  rw [nextName] at h
  split at h
  · cases h
  · rename_i b t left
    rw [left] at text
    split at h
    · cases h
    rw [if_pos rfl] at h
    split at h
    · rename_i quote
      cases h
      exact ⟨spaces, by rw [text, quote], are⟩
    · cases h

theorem exists_of_nextName_further (h : nextName false s = .ok (true, rest)) :
    ∃ spaces more, s = spaces ++ ascii ',' :: (more ++ ascii '\x22' :: rest) ∧ AreSpaces spaces ∧
      AreSpaces more := by
  obtain ⟨spaces, text, are⟩ := exists_spaces s
  rw [nextName] at h
  split at h
  · cases h
  · rename_i b t left
    rw [left] at text
    split at h
    · cases h
    rw [if_neg Bool.false_ne_true] at h
    split at h
    · rename_i comma
      obtain ⟨more, text', areMore⟩ := exists_spaces t
      split at h
      · cases h
      · rename_i c u left'
        split at h
        · rename_i quote
          cases h
          exact ⟨spaces, more, by rw [text, comma, text', left', quote], are, areMore⟩
        · split at h <;> cases h
    · cases h

theorem colon_append (are : AreSpaces spaces) : colon (spaces ++ ascii ':' :: s) = .ok s := by
  rw [colon, skipSpaces_token are (by decide)]
  simp only [if_true]

theorem exists_of_colon_eq_ok (h : colon s = .ok rest) :
    ∃ spaces, s = spaces ++ ascii ':' :: rest ∧ AreSpaces spaces := by
  obtain ⟨spaces, text, are⟩ := exists_spaces s
  rw [colon] at h
  split at h
  · cases h
  · rename_i b t left
    rw [left] at text
    split at h
    · rename_i same
      cases h
      exact ⟨spaces, by rw [text, same], are⟩
    · cases h

end NextName

/-! ## Arrays -/

section Arrays

variable {inner : Bytes → Json → Prop} {read : Reader Json} {sofar : List Json} {s rest : Bytes}

theorem item_of_more {left : Bytes} {v : Json} (more : nextItem sofar.isEmpty s = .ok (true, left))
    (value : read left = .ok (v, rest)) : item read sofar s = .ok (.inl (v :: sofar), rest) := by
  rw [item, more, ok_bind]
  simp only [value]
  rfl

theorem exists_of_item_eq_ok {reached : List Json ⊕ List Json}
    (h : item read sofar s = .ok (reached, rest)) :
    (∃ left v, nextItem sofar.isEmpty s = .ok (true, left) ∧ read left = .ok (v, rest) ∧
        reached = .inl (v :: sofar)) ∨
      (∃ left, nextItem sofar.isEmpty s = .ok (false, left) ∧ rest = left.drop 1 ∧
        reached = .inr sofar.reverse) := by
  obtain ⟨⟨more, left⟩, next, h⟩ := bind_eq_ok.mp h
  cases more with
  | false =>
      cases h
      exact .inr ⟨left, next, rfl, rfl⟩
  | true =>
      obtain ⟨⟨v, left'⟩, value, h⟩ := map_eq_ok.mp h
      cases h
      exact .inl ⟨left, v, next, value, rfl⟩

/-- An array is read by its items. -/
theorem Reads.stepsThrough_item (h : Reads inner read) :
    StepsThrough (Spaced inner) (item read) (· = []) (fun sofar v => v :: sofar) List.reverse
      (ascii ']') where
  closes := by decide
  pushed _ _ := List.cons_ne_nil _ _
  nonempty := by
    rintro _ v ⟨-, isPart⟩ none
    obtain ⟨b, t, rfl, -⟩ := h.opening isPart
    exact absurd (List.append_eq_nil_iff.mp none).2 (List.cons_ne_nil b t)
  first := by
    rintro _ _ rest v rfl ⟨are, isPart⟩ ends
    have value := h.all areSpaces_nil isPart ends
    obtain ⟨b, t, rfl, opening⟩ := h.opening isPart
    rw [List.append_assoc]
    exact item_of_more (nextItem_first are opening) value
  further := by
    rintro sofar before _ rest v begun areBefore ⟨are, isPart⟩ ends
    have value := h.all areSpaces_nil isPart ends
    obtain ⟨b, t, rfl, opening⟩ := h.opening isPart
    obtain ⟨w, ws, rfl⟩ := List.exists_cons_of_ne_nil begun
    rw [List.append_assoc]
    exact item_of_more (nextItem_further areBefore are opening) value
  stops := by
    intro sofar spaces rest are
    rw [item, nextItem_close _ are, ok_bind]
    rfl
  onlyFirst := by
    rintro _ next s rest rfl step
    rcases exists_of_item_eq_ok step with ⟨left, v, more, value, same⟩ | ⟨-, -, -, same⟩
    · obtain ⟨spaces, rfl, are⟩ := exists_of_nextItem_first more
      obtain ⟨t, rfl, are', isPart⟩ := h.only value
      cases same
      rw [← List.append_assoc, ← List.append_assoc]
      exact ⟨_, v, rfl, .mk (are.append are') isPart, rfl⟩
    · cases same
  onlyFurther := by
    rintro sofar next s rest begun step
    obtain ⟨w, ws, rfl⟩ := List.exists_cons_of_ne_nil begun
    rcases exists_of_item_eq_ok step with ⟨left, v, more, value, same⟩ | ⟨-, -, -, same⟩
    · obtain ⟨spaces, behind, rfl, are, areBehind⟩ := exists_of_nextItem_further more
      obtain ⟨t, rfl, are', isPart⟩ := h.only value
      cases same
      rw [← List.append_assoc, ← List.append_assoc]
      exact ⟨spaces, _, v, rfl, are, .mk (areBehind.append are') isPart, rfl⟩
    · cases same
  onlyStops := by
    intro sofar last s rest step
    rcases exists_of_item_eq_ok step with ⟨_, _, _, _, same⟩ | ⟨left, close, drop, same⟩
    · cases same
    · obtain ⟨spaces, t, rfl, are, rfl⟩ := exists_of_nextItem_close close
      cases same
      rw [drop]
      exact ⟨spaces, rfl, are, rfl⟩

theorem foldl_cons_reverse (vs sofar : List Json) :
    (vs.foldl (fun sofar v => v :: sofar) sofar).reverse = sofar.reverse ++ vs := by
  induction vs generalizing sofar with
  | nil => exact (List.append_nil _).symm
  | cons v vs ih => rw [List.foldl_cons, ih, List.reverse_cons, List.append_assoc]; rfl

end Arrays

/-! ## Objects -/

section Objects

variable {inner : Bytes → Json → Prop} {read : Reader Json}
  {sofar : Option (List (String × Json))} {s rest : Bytes}

/-- The members so far with one more. -/
def pushMember (sofar : Option (List (String × Json))) (m : String × Json) :
    Option (List (String × Json)) := some (insert m.1 m.2 (sofar.getD []))

/-- A member is a name in quotes, a colon and a value. -/
theorem isMember_iff {s : Bytes} {m : String × Json} :
    IsMember inner s m ↔ ∃ letters spaces t,
      s = ascii '\x22' :: (letters ++ ascii '\x22' :: (spaces ++ ascii ':' :: t)) ∧
        Literal.SpellsAll letters m.1.toList ∧ AreSpaces spaces ∧ Spaced inner t m.2 := by
  constructor
  · rintro ⟨⟨letters, rfl, spelled⟩, are, value⟩
    exact ⟨letters, _, _, by simp, spelled, are, value⟩
  · rintro ⟨letters, spaces, t, rfl, spelled, are, value⟩
    have isMember := IsMember.mk ⟨letters, rfl, spelled⟩ are value
    simpa using isMember

/-- Behind its opening quote a member is read as a name and a colon, up to its value. -/
theorem IsMember.exists_read {m : String × Json} {behind : Bytes}
    (h : IsMember inner (ascii '\x22' :: behind) m) (rest : Bytes) :
    ∃ left t, Literal.read (behind ++ rest) = .ok (m.1, left) ∧ colon left = .ok (t ++ rest) ∧
      Spaced inner t m.2 := by
  obtain ⟨letters, spaces, t, text, spelled, are, value⟩ := isMember_iff.mp h
  obtain rfl := (List.cons.inj text).2
  refine ⟨spaces ++ ascii ':' :: (t ++ rest), t, ?_, colon_append are, value⟩
  have read := Literal.read_eq_ok_iff.mpr
    ⟨letters, (rfl : _ = letters ++ ascii '\x22' :: (spaces ++ ascii ':' :: (t ++ rest))), spelled⟩
  simpa using read

theorem member_of_more (h : Reads inner read) {m : String × Json} {behind : Bytes}
    (isMember : IsMember inner (ascii '\x22' :: behind) m) (ends : Ends rest)
    (more : nextName sofar.isNone s = .ok (true, behind ++ rest)) :
    member read sofar s = .ok (.inl (pushMember sofar m), rest) := by
  obtain ⟨left, t, named, separated, value⟩ := isMember.exists_read rest
  rw [member, more, ok_bind]
  simp only [named, ok_bind, separated, h.spaced value ends]
  rfl

theorem exists_of_member_eq_ok (h : Reads inner read)
    {reached : Option (List (String × Json)) ⊕ Option (List (String × Json))}
    (step : member read sofar s = .ok (reached, rest)) :
    (∃ behind m, nextName sofar.isNone s = .ok (true, behind ++ rest) ∧
        IsMember inner (ascii '\x22' :: behind) m ∧ reached = .inl (pushMember sofar m)) ∨
      (∃ left, nextName sofar.isNone s = .ok (false, left) ∧ rest = left.drop 1 ∧
        reached = .inr sofar) := by
  obtain ⟨⟨more, left⟩, next, step⟩ := bind_eq_ok.mp step
  cases more with
  | false =>
      cases step
      exact .inr ⟨left, next, rfl, rfl⟩
  | true =>
      obtain ⟨⟨name, afterName⟩, named, step⟩ := bind_eq_ok.mp step
      obtain ⟨afterColon, separated, step⟩ := bind_eq_ok.mp step
      obtain ⟨⟨v, afterValue⟩, value, step⟩ := bind_eq_ok.mp step
      cases step
      obtain ⟨letters, rfl, spelled⟩ := Literal.read_eq_ok_iff.mp named
      obtain ⟨spaces, rfl, are⟩ := exists_of_colon_eq_ok separated
      obtain ⟨t, rfl, isValue⟩ := h.only value
      refine .inl ⟨letters ++ ascii '\x22' :: (spaces ++ ascii ':' :: t), (name, v), ?_,
        isMember_iff.mpr ⟨letters, spaces, t, rfl, spelled, are, isValue⟩, rfl⟩
      rw [next]
      simp

/-- An object is read by its members. -/
theorem Reads.stepsThrough_member (h : Reads inner read) :
    StepsThrough (Spaced (IsMember inner)) (member read) (· = none) pushMember id
      (ascii '\x7d') where
  closes := by decide
  pushed _ _ := Option.some_ne_none _
  nonempty := by
    rintro _ m ⟨-, isMember⟩ none
    obtain ⟨letters, spaces, t, rfl, -⟩ := isMember_iff.mp isMember
    exact absurd (List.append_eq_nil_iff.mp none).2 (List.cons_ne_nil _ _)
  first := by
    rintro _ _ rest m rfl ⟨are, isMember⟩ ends
    obtain ⟨letters, spaces, t, rfl, -⟩ := isMember_iff.mp isMember
    rw [List.append_assoc]
    exact member_of_more h isMember ends (nextName_first are)
  further := by
    rintro sofar before _ rest m begun areBefore ⟨are, isMember⟩ ends
    obtain ⟨letters, spaces, t, rfl, -⟩ := isMember_iff.mp isMember
    obtain ⟨ms, rfl⟩ := Option.ne_none_iff_exists'.mp begun
    rw [List.append_assoc]
    exact member_of_more h isMember ends (nextName_further areBefore are)
  stops := by
    intro sofar spaces rest are
    rw [member, nextName_close _ are, ok_bind]
    rfl
  onlyFirst := by
    rintro _ next s rest rfl step
    rcases exists_of_member_eq_ok h step with ⟨behind, m, more, isMember, same⟩ | ⟨-, -, -, same⟩
    · obtain ⟨spaces, rfl, are⟩ := exists_of_nextName_first more
      cases same
      rw [← List.cons_append, ← List.append_assoc]
      exact ⟨_, m, rfl, .mk are isMember, rfl⟩
    · cases same
  onlyFurther := by
    rintro sofar next s rest begun step
    obtain ⟨ms, rfl⟩ := Option.ne_none_iff_exists'.mp begun
    rcases exists_of_member_eq_ok h step with ⟨behind, m, more, isMember, same⟩ | ⟨-, -, -, same⟩
    · obtain ⟨spaces, between, rfl, are, areBetween⟩ := exists_of_nextName_further more
      cases same
      exact ⟨spaces, between ++ ascii '\x22' :: behind, m, by simp, are, .mk areBetween isMember,
        rfl⟩
    · cases same
  onlyStops := by
    intro sofar last s rest step
    rcases exists_of_member_eq_ok h step with ⟨_, _, _, _, same⟩ | ⟨left, close, drop, same⟩
    · cases same
    · obtain ⟨spaces, t, rfl, are, rfl⟩ := exists_of_nextName_close close
      cases same
      rw [drop]
      exact ⟨spaces, rfl, are, rfl⟩

/-- Of several members with one name the last that is pushed is found. -/
theorem find?_foldl_pushMember (name : String) (ms : List (String × Json))
    (sofar : Option (List (String × Json))) :
    find? name ((ms.foldl pushMember sofar).getD []) =
      (find? name ms.reverse).or (find? name (sofar.getD [])) := by
  induction ms generalizing sofar with
  | nil => rfl
  | cons m ms ih =>
      rw [List.foldl_cons, ih, List.reverse_cons, find?_append, Option.or_assoc]
      congr 1
      rw [pushMember, Option.getD_some, find?_insert, find?, find?]
      split <;> rfl

theorem ascending_foldl_pushMember (ms : List (String × Json))
    {sofar : Option (List (String × Json))} (h : Ascending (sofar.getD [])) :
    Ascending ((ms.foldl pushMember sofar).getD []) := by
  induction ms generalizing sofar with
  | nil => exact h
  | cons m ms ih => exact ih (ascending_insert m.1 m.2 h)

end Objects

/-! ## Values -/

section Brackets

variable {inner : Bytes → Json → Prop} {read : Reader Json} (h : Reads inner read)
include h

theorem IsBracketed.exists_read {t : Bytes} {v : Json} (bracketed : IsBracketed inner t v)
    (rest : Bytes) :
    ∃ shape, head (t ++ rest) = .ok (shape, t ++ rest) ∧
      remainder (some read) shape (t ++ rest) = .ok (v, rest) := by
  cases bracketed with
  | @array s spaces items listed are =>
      refine ⟨.sequence, head_array _, ?_⟩
      have gathered : repeated (item read) [] (s ++ (spaces ++ ascii ']' :: rest)) = .ok (_, rest) :=
        (h.stepsThrough_item.repeated_eq_ok_iff rfl).mpr ⟨s, spaces, items, rfl, listed, are, rfl⟩
      rw [append_bracketed, remainder, List.drop_succ_cons, List.drop_zero, gathered, foldl_cons_reverse]
      rfl
  | @object s spaces members fields listed are order last =>
      refine ⟨.map, head_object _, ?_⟩
      have gathered : repeated (member read) none (s ++ (spaces ++ ascii '\x7d' :: rest)) =
          .ok (_, rest) :=
        (h.stepsThrough_member.repeated_eq_ok_iff rfl).mpr
          ⟨s, spaces, members, rfl, listed, are, rfl⟩
      have sorted : Ascending ((members.foldl pushMember none).getD []) :=
        ascending_foldl_pushMember members ascending_nil
      have held : (members.foldl pushMember none).getD [] = fields := by
        refine sorted.eq_of_find?_eq order fun name => ?_
        rw [last name, find?_foldl_pushMember]
        exact Option.or_none
      rw [append_bracketed, remainder, List.drop_succ_cons, List.drop_zero, gathered, id, ← held]
      rfl

theorem exists_of_sequence_eq_ok {s rest : Bytes} {v : Json}
    (array : remainder (some read) .sequence (ascii '[' :: s) = .ok (v, rest)) :
    ∃ t, ascii '[' :: s = t ++ rest ∧ IsBracketed inner t v := by
  obtain ⟨⟨items, left⟩, gathered, same⟩ := map_eq_ok.mp array
  obtain ⟨t, spaces, as, text, listed, are, rfl⟩ :=
    (h.stepsThrough_item.repeated_eq_ok_iff rfl).mp gathered
  cases same
  obtain rfl : s = t ++ (spaces ++ ascii ']' :: rest) := text
  refine ⟨ascii '[' :: (t ++ (spaces ++ [ascii ']'])), by simp, .array ?_ are⟩
  rwa [foldl_cons_reverse]

theorem exists_of_map_eq_ok {s rest : Bytes} {v : Json}
    (object : remainder (some read) .map (ascii '\x7b' :: s) = .ok (v, rest)) :
    ∃ t, ascii '\x7b' :: s = t ++ rest ∧ IsBracketed inner t v := by
  obtain ⟨⟨members, left⟩, gathered, same⟩ := map_eq_ok.mp object
  obtain ⟨t, spaces, as, text, listed, are, rfl⟩ :=
    (h.stepsThrough_member.repeated_eq_ok_iff rfl).mp gathered
  cases same
  obtain rfl : s = t ++ (spaces ++ ascii '\x7d' :: rest) := text
  refine ⟨ascii '\x7b' :: (t ++ (spaces ++ [ascii '\x7d'])), by simp, .object listed are
    (ascending_foldl_pushMember as ascending_nil) fun name => ?_⟩
  rw [id, find?_foldl_pushMember]
  exact Option.or_none

end Brackets

theorem IsBracketed.exists_opening {inner : Bytes → Json → Prop} {s : Bytes} {v : Json}
    (h : IsBracketed inner s v) : ∃ b t, s = b :: t ∧ isOpening b = true := by
  cases h
  · exact ⟨ascii '[', _, rfl, by decide⟩
  · exact ⟨ascii '\x7b', _, rfl, by decide⟩

/-- However deep brackets may be, values are read as the grammar has them. -/
theorem reads_value (depth : Nat) : Reads (Spells depth) (value depth) := by
  induction depth with
  | zero =>
      refine ⟨IsScalar.exists_opening, ?_, ?_⟩
      · intro spaces s rest v are scalar ends
        rw [value, head_append are, head_scalar scalar ends, ok_bind]
        exact scalar.remainder_eq none rest
      · intro s rest v read
        obtain ⟨⟨shape, left⟩, first, others⟩ := bind_eq_ok.mp read
        obtain ⟨spaces, t, rfl, are, ⟨u, w, rfl, scalar, rfl⟩ | ⟨rfl, u, ⟨rfl, rfl⟩ | ⟨rfl, rfl⟩⟩⟩ :=
          exists_of_head_eq_ok first
        · simp only [scalar.remainder_eq] at others
          cases others
          rw [← List.append_assoc]
          exact ⟨_, rfl, .mk are scalar⟩
        · cases others
        · cases others
  | succ depth ih =>
      refine ⟨?_, ?_, ?_⟩
      · rintro s v (scalar | bracketed)
        · exact scalar.exists_opening
        · exact bracketed.exists_opening
      · rintro spaces s rest v are (scalar | bracketed) ends
        · rw [value, head_append are, head_scalar scalar ends, ok_bind]
          exact scalar.remainder_eq _ rest
        · obtain ⟨shape, first, others⟩ := bracketed.exists_read ih rest
          rw [value, head_append are, first, ok_bind]
          exact others
      · intro s rest v read
        obtain ⟨⟨shape, left⟩, first, others⟩ := bind_eq_ok.mp read
        obtain ⟨spaces, t, rfl, are, ⟨u, w, rfl, scalar, rfl⟩ | ⟨rfl, u, ⟨rfl, rfl⟩ | ⟨rfl, rfl⟩⟩⟩ :=
          exists_of_head_eq_ok first
        · simp only [scalar.remainder_eq] at others
          cases others
          rw [← List.append_assoc]
          exact ⟨_, rfl, .mk are (.inl scalar)⟩
        · obtain ⟨t, text, bracketed⟩ := exists_of_sequence_eq_ok ih others
          rw [text, ← List.append_assoc]
          exact ⟨_, rfl, .mk are (.inr bracketed)⟩
        · obtain ⟨t, text, bracketed⟩ := exists_of_map_eq_ok ih others
          rw [text, ← List.append_assoc]
          exact ⟨_, rfl, .mk are (.inr bracketed)⟩

/-! ## Texts -/

theorem atEnd_eq_ok_iff {s : Bytes} : atEnd s = .ok () ↔ AreSpaces s := by
  obtain ⟨spaces, text, are⟩ := exists_spaces s
  constructor
  · intro ends
    rw [atEnd] at ends
    split at ends
    · rename_i none
      rw [text, none, List.append_nil]
      exact are
    · cases ends
  · intro are
    have none : skipSpaces s = [] := by
      have skipped := skipSpaces_append are []
      rwa [List.append_nil] at skipped
    rw [atEnd, none]

theorem ends_of_areSpaces {s : Bytes} (are : AreSpaces s) : Ends s := by
  cases s with
  | nil => exact ends_nil
  | cons b s =>
      have space := are b List.mem_cons_self
      exact ends_cons (by simp [isClosing, space]) s

/-- A text is read exactly if it is a text of a value, and as that value. -/
theorem parse_eq_ok_iff {text : Bytes} {v : Json} : parse text = .ok v ↔ IsText text v := by
  have reads : Reads (Spells 127) (value depthLimit) := reads_value depthLimit
  constructor
  · intro parsed
    obtain ⟨⟨w, rest⟩, read, parsed⟩ := bind_eq_ok.mp parsed
    obtain ⟨⟨⟩, ends, parsed⟩ := bind_eq_ok.mp parsed
    cases parsed
    obtain ⟨t, rfl, spaced⟩ := reads.only read
    exact ⟨t, rest, rfl, spaced, atEnd_eq_ok_iff.mp ends⟩
  · rintro ⟨s, spaces, rfl, spaced, are⟩
    rw [parse, reads.spaced spaced (ends_of_areSpaces are), ok_bind]
    simp only [atEnd_eq_ok_iff.mpr are, ok_bind]
    rfl

/-- A text is one of a single value. -/
theorem IsText.eq {text : Bytes} {v w : Json} (hv : IsText text v) (hw : IsText text w) : v = w := by
  have parsed := parse_eq_ok_iff.mpr hv
  rw [parse_eq_ok_iff.mpr hw] at parsed
  exact (Except.ok.inj parsed).symm

theorem decode_eq_ok_iff {text : Bytes} {v : Json} : decode text = .ok v ↔ IsText text v := by
  rw [← parse_eq_ok_iff, decode]
  split
  · rename_i read parsed
    rw [parsed, Except.ok.injEq, Except.ok.injEq]
  · rename_i f refused
    rw [refused]
    constructor
    · intro h
      cases h
    · intro h
      cases h

/-- What is no text is refused as such. -/
theorem exists_of_decode_eq_error {text : Bytes} {e : Error} (h : decode text = .error e) :
    ∃ message, e = .decode message := by
  rw [decode] at h
  split at h
  · cases h
  · rename_i f refused
    cases h
    exact ⟨f.message text, rfl⟩

/-- Nothing at all is no text. -/
theorem not_isText_nil (v : Json) : ¬IsText [] v := by
  rw [← parse_eq_ok_iff]
  intro parsed
  cases parsed

end RegionApi.Json
