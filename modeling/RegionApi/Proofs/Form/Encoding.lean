import RegionApi.Form.Encoding
import RegionApi.Proofs.Text.Percent

/-!
# A written form is read back pair by pair

`decode?_encode`: reading a written form gives its pairs in their order, whatever characters stand
in names and values. A part is read back because a plus sign among its characters is always a
space; the pairs are found again because no part holds a separator.
-/

namespace RegionApi.Form

open Text

/-! ## What a written part is made of -/

/-- The characters of a written name or value. -/
def isWritten (c : Char) : Bool := kept c || c = '+' || c = '%'

/-- What is written can be printed. -/
theorem toNat_bounds_of_isWritten {c : Char} (h : isWritten c = true) :
    0x20 ≤ c.toNat ∧ c.toNat < 0x7f := by
  simp only [isWritten, kept, Bool.or_eq_true, decide_eq_true_eq] at h
  rcases h with (((((h | rfl) | rfl) | rfl) | rfl) | rfl) | rfl
  · have bounds := Percent.toNat_bounds_of_isAlphanum h
    omega
  all_goals decide

theorem isWritten_of_mem_encodeChar {c : Char} : ∀ d ∈ encodeChar c, isWritten d = true := by
  unfold encodeChar
  split
  · intro d hd
    rw [List.mem_singleton.mp hd]
    decide
  · exact Percent.forall_mem_encodeChar (fun d hd => by simp [isWritten, hd]) (by decide)
      (by decide) c

theorem isWritten_of_mem_encodePart {s : String} : ∀ c ∈ encodePart s, isWritten c = true := by
  intro c hc
  obtain ⟨d, -, hd⟩ := List.mem_flatMap.mp hc
  exact isWritten_of_mem_encodeChar c hd

/-- A part holds no ampersand, so ampersands tell the pairs apart. -/
theorem ampersand_notMem_encodePart (s : String) : '&' ∉ encodePart s := fun h =>
  absurd (isWritten_of_mem_encodePart _ h) (by decide)

/-- A part holds no equals sign, so the first one of a pair ends its name. -/
theorem ne_equals_of_mem_encodePart {s : String} : ∀ c ∈ encodePart s, c ≠ '=' := by
  rintro c hc rfl
  exact absurd (isWritten_of_mem_encodePart _ hc) (by decide)

theorem ampersand_notMem_encodePair (p : String × String) : '&' ∉ encodePair p := by
  simp [encodePair, ampersand_notMem_encodePart]

/-- The characters of a written form: those of its parts and the two separators. -/
theorem isWritten_or_separator_of_mem_encode {f : Form} {c : Char} (h : c ∈ f.encode.toList) :
    isWritten c = true ∨ c = '=' ∨ c = '&' := by
  rw [encode, String.toList_ofList] at h
  rcases mem_intercalate h with h | ⟨part, hpart, h⟩
  · exact .inr (.inr (List.mem_singleton.mp h))
  · obtain ⟨p, -, rfl⟩ := List.mem_map.mp hpart
    rcases List.mem_append.mp h with h | h
    · exact .inl (isWritten_of_mem_encodePart c h)
    · rcases List.mem_cons.mp h with h | h
      · exact .inr (.inl h)
      · exact .inl (isWritten_of_mem_encodePart c h)

/-! ## Parts -/

/-- With its plus signs turned into spaces a character is percent-encoded, the space kept. -/
theorem map_encodeChar (c : Char) :
    (encodeChar c).map (fun d => if d = '+' then ' ' else d) =
      Percent.encodeChar (fun d => kept d || d = ' ') c := by
  by_cases space : c = ' '
  · subst space
    decide
  · have same : Percent.encodeChar (fun d => kept d || d = ' ') c =
        Percent.encodeChar kept c := by
      simp [Percent.encodeChar, space]
    have ne : ∀ d ∈ Percent.encodeChar kept c, d ≠ '+' := by
      refine Percent.forall_mem_encodeChar ?_ (by decide) (by decide) c
      rintro d hd rfl
      exact absurd hd (by decide)
    rw [same, encodeChar, if_neg space]
    calc (Percent.encodeChar kept c).map (fun d => if d = '+' then ' ' else d)
        = (Percent.encodeChar kept c).map id := List.map_congr_left fun d hd => if_neg (ne d hd)
      _ = Percent.encodeChar kept c := List.map_id _

/-- A written part is read back. -/
theorem decodePart?_encodePart (s : String) : decodePart? (encodePart s) = some s := by
  have percent : (encodePart s).map (fun c => if c = '+' then ' ' else c) =
      Percent.encodeChars (fun c => kept c || c = ' ') s.toList := by
    simp only [encodePart, Percent.encodeChars, List.map_flatMap, map_encodeChar]
  rw [decodePart?, percent]
  exact Percent.ofUtf8?_decodeChars_encodeChars (by decide) s

/-! ## Pairs -/

theorem encodePair_ne_nil (p : String × String) : encodePair p ≠ [] := by
  simp [encodePair]

/-- A written pair is read back: its name ends at the first equals sign. -/
theorem decodePair?_encodePair (p : String × String) : decodePair? (encodePair p) = some p := by
  have before : ∀ c ∈ encodePart p.1, decide (c ≠ '=') = true := fun c hc =>
    decide_eq_true (ne_equals_of_mem_encodePart c hc)
  have name : (encodePair p).takeWhile (· ≠ '=') = encodePart p.1 := by
    rw [encodePair, List.takeWhile_append_of_pos before]
    simp
  have value : ((encodePair p).dropWhile (· ≠ '=')).drop 1 = encodePart p.2 := by
    rw [encodePair, List.dropWhile_append_of_pos before]
    simp
  rw [decodePair?, name, value, decodePart?_encodePart, decodePart?_encodePart]
  rfl

theorem mapM_decodePair?_encodePair (ps : List (String × String)) :
    (ps.map encodePair).mapM decodePair? = some ps := by
  induction ps with
  | nil => rfl
  | cons p ps ih => simp [List.mapM_cons, decodePair?_encodePair, ih]

/-- Pairs written one behind the other are found again. -/
theorem decode?_encodePairs (ps : List (String × String)) :
    decode? (String.ofList (encodePairs ps)) = some ps := by
  unfold decode? encodePairs
  rw [String.toList_ofList]
  by_cases empty : ps = []
  · subst empty
    rfl
  · have pieces : List.splitOn '&' (List.intercalate ['&'] (ps.map encodePair)) =
        ps.map encodePair := by
      refine List.splitOn_intercalate _ ?_ (by simpa using empty)
      intro piece hpiece
      obtain ⟨p, -, rfl⟩ := List.mem_map.mp hpiece
      exact ampersand_notMem_encodePair p
    have all : (ps.map encodePair).filter (· ≠ []) = ps.map encodePair := by
      apply List.filter_eq_self.mpr
      intro piece hpiece
      obtain ⟨p, -, rfl⟩ := List.mem_map.mp hpiece
      exact decide_eq_true (encodePair_ne_nil p)
    rw [pieces, all, mapM_decodePair?_encodePair]

/-- A written form is read back as its pairs. -/
theorem decode?_encode (f : Form) : decode? f.encode = some f.pairs := decode?_encodePairs f.pairs

end RegionApi.Form
