/-!
# Text between separators

A list is split at its separators, so no part holds one (`eq_false_of_mem_splitOnP`), and parts that
hold none are found again (`splitOnP_intercalate`). A separator of two elements is one of a single
element before which every part but the first begins with the other (`intercalate_pair_cons`).
-/

namespace RegionApi.Text

variable {α : Type}

/-- No part between separators holds a separator. -/
theorem eq_false_of_mem_splitOnP {p : α → Bool} {as part : List α} (h : part ∈ as.splitOnP p) :
    ∀ a ∈ part, p a = false := by
  induction as generalizing part with
  | nil =>
      rw [List.splitOnP_nil, List.mem_singleton] at h
      rw [h]
      exact fun a ha => absurd ha List.not_mem_nil
  | cons b as ih =>
      rw [List.splitOnP_cons_eq_if_modifyHead] at h
      split at h
      · rcases List.mem_cons.mp h with rfl | h
        · exact fun a ha => absurd ha List.not_mem_nil
        · exact ih h
      · rename_i separates
        obtain ⟨first, rest, parts⟩ := List.exists_cons_of_ne_nil (List.splitOnP_ne_nil p as)
        rw [parts, List.modifyHead_cons] at h
        rcases List.mem_cons.mp h with rfl | h
        · intro a ha
          rcases List.mem_cons.mp ha with rfl | ha
          · exact Bool.eq_false_iff.mpr separates
          · exact ih (parts ▸ List.mem_cons_self) a ha
        · exact ih (parts ▸ List.mem_cons_of_mem first h)

theorem notMem_of_mem_splitOn [DecidableEq α] {sep : α} {as part : List α}
    (h : part ∈ as.splitOn sep) : sep ∉ part := by
  intro hsep
  have separates := eq_false_of_mem_splitOnP h sep hsep
  exact absurd rfl (beq_eq_false_iff_ne.mp separates)

/-- Parts without separators are found again after they have been joined by one. -/
theorem splitOnP_intercalate {p : α → Bool} {sep : α} (separates : p sep = true)
    {parts : List (List α)} (some : parts ≠ [])
    (whole : ∀ part ∈ parts, ∀ a ∈ part, p a = false) :
    ([sep].intercalate parts).splitOnP p = parts := by
  induction parts with
  | nil => exact absurd rfl some
  | cons part parts ih =>
      obtain ⟨first, others⟩ := List.forall_mem_cons.mp whole
      cases parts with
      | nil => rw [List.intercalate_singleton, List.splitOnP_eq_singleton first]
      | cons next parts =>
          rw [List.intercalate_cons_cons, List.append_assoc, List.singleton_append,
            List.splitOnP_append_cons_of_forall_mem first sep separates,
            ih (List.cons_ne_nil _ _) others]

/-- Two lists of parts joined each for itself are joined by one more separator. -/
theorem intercalate_append (sep : α) {parts others : List (List α)} (some : parts ≠ [])
    (more : others ≠ []) :
    [sep].intercalate (parts ++ others) =
      [sep].intercalate parts ++ sep :: [sep].intercalate others := by
  induction parts with
  | nil => exact absurd rfl some
  | cons part parts ih =>
      cases parts with
      | nil =>
          obtain ⟨next, others, rfl⟩ := List.exists_cons_of_ne_nil more
          rw [List.singleton_append, List.intercalate_cons_cons, List.intercalate_singleton,
            List.append_assoc, List.singleton_append]
      | cons next parts =>
          rw [List.cons_append, List.cons_append, List.intercalate_cons_cons,
            List.intercalate_cons_cons, ← List.cons_append, ih (List.cons_ne_nil _ _),
            List.append_assoc, List.append_assoc, List.append_assoc]

/-- Parts joined by two elements are joined by the first one once the second begins each part but
the first. -/
theorem intercalate_pair_cons (a b : α) (part : List α) (parts : List (List α)) :
    [a, b].intercalate (part :: parts) = [a].intercalate (part :: parts.map (b :: ·)) := by
  induction parts generalizing part with
  | nil => rfl
  | cons next parts ih =>
      rw [List.intercalate_cons_cons, ih, List.map_cons, List.intercalate_cons_cons]
      cases parts with
      | nil => simp
      | cons later parts => simp [List.intercalate_cons_cons]

end RegionApi.Text
