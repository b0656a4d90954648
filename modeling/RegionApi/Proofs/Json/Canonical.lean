import RegionApi.Json.Parser
import RegionApi.Proofs.Except

/-!
# What is read is canonical

Whatever a text holds, the value that is read from it has the members of its objects in order and
each name once, however often and in which order the text gives them (`isCanonical_of_decode`).
Reading is one loop, so this is a matter of what a single step of the loop keeps.
-/

namespace RegionApi.Json

/-! ## The loop -/

section Loop

variable {σ : Type} {step : σ → Reader (σ ⊕ σ)} {P Q : σ → Prop}

/-- What each step keeps holds when the loop ends, and so does what the last step makes of it. -/
theorem of_repeatedAtMost
    (keeps : ∀ state s next rest, P state → step state s = .ok (.inl next, rest) → P next)
    (ends : ∀ state s last rest, P state → step state s = .ok (.inr last, rest) → Q last)
    {n : Nat} {state last : σ} {s rest : Bytes} (start : P state)
    (h : repeatedAtMost step n state s = .ok (last, rest)) : Q last := by
  induction n generalizing state s with
  | zero => cases h
  | succ n ih =>
      rw [repeatedAtMost] at h
      split at h
      · cases h
      · rename_i next left goes
        exact ih (keeps state s next left start goes) h
      · rename_i final left stops
        cases h
        exact ends state s last rest start stops

end Loop

/-! ## Members -/

theorem mem_insert {name : String} {value : Json} {ms : List (String × Json)} {m : String × Json}
    (h : m ∈ insert name value ms) : m = (name, value) ∨ m ∈ ms := by
  induction ms with
  | nil => exact .inl (List.mem_singleton.mp h)
  | cons n ns ih =>
      unfold insert at h
      split at h
      · rcases List.mem_cons.mp h with rfl | h
        · exact .inr List.mem_cons_self
        · exact (ih h).imp_right (List.mem_cons_of_mem _)
      · split at h
        · exact (List.mem_cons.mp h).imp_right (List.mem_cons_of_mem _)
        · exact List.mem_cons.mp h

/-- Whether some members are in order and their values canonical. -/
structure AreCanonical (ms : List (String × Json)) : Prop where
  order : Ascending ms
  each : ∀ m ∈ ms, m.2.IsCanonical

theorem areCanonical_nil : AreCanonical [] :=
  ⟨ascending_nil, fun _ hm => absurd hm List.not_mem_nil⟩

theorem AreCanonical.insert {ms : List (String × Json)} (h : AreCanonical ms) (name : String)
    {v : Json} (hv : v.IsCanonical) : AreCanonical (Json.insert name v ms) := by
  refine ⟨ascending_insert name v h.order, fun m hm => ?_⟩
  rcases mem_insert hm with rfl | hm
  · exact hv
  · exact h.each m hm

/-! ## Readers -/

/-- Whether all that a reader reads is canonical. -/
def ReadsCanonical (read : Reader Json) : Prop :=
  ∀ s v rest, read s = .ok (v, rest) → v.IsCanonical

section Steps

variable {read : Reader Json}

/-- One more item, or the end of an array. -/
theorem item_eq_ok {sofar : List Json} {s rest : Bytes} {reached : List Json ⊕ List Json}
    (h : item read sofar s = .ok (reached, rest)) :
    (∃ v s', read s' = .ok (v, rest) ∧ reached = .inl (v :: sofar)) ∨
      reached = .inr sofar.reverse := by
  obtain ⟨⟨more, left⟩, -, h⟩ := bind_eq_ok.mp h
  cases more with
  | false =>
      cases h
      exact .inr rfl
  | true =>
      obtain ⟨⟨v, left'⟩, item, h⟩ := map_eq_ok.mp h
      cases h
      exact .inl ⟨v, left, item, rfl⟩

/-- One more member, or the end of an object. -/
theorem member_eq_ok {sofar : Option (List (String × Json))} {s rest : Bytes}
    {reached : Option (List (String × Json)) ⊕ Option (List (String × Json))}
    (h : member read sofar s = .ok (reached, rest)) :
    (∃ name v s', read s' = .ok (v, rest) ∧
      reached = .inl (some (Json.insert name v (sofar.getD [])))) ∨ reached = .inr sofar := by
  obtain ⟨⟨more, left⟩, -, h⟩ := bind_eq_ok.mp h
  cases more with
  | false =>
      cases h
      exact .inr rfl
  | true =>
      obtain ⟨⟨name, left'⟩, -, h⟩ := bind_eq_ok.mp h
      obtain ⟨behind, -, h⟩ := bind_eq_ok.mp h
      obtain ⟨⟨v, rest'⟩, member, h⟩ := bind_eq_ok.mp h
      cases h
      exact .inl ⟨name, v, behind, member, rfl⟩

theorem isCanonical_of_repeated_item (reads : ReadsCanonical read) {vs : List Json}
    {s rest : Bytes} (h : repeated (item read) [] s = .ok (vs, rest)) :
    (array vs).IsCanonical := by
  have items : ∀ v ∈ vs, v.IsCanonical := by
    refine of_repeatedAtMost (P := fun sofar => ∀ v ∈ sofar, v.IsCanonical)
      (Q := fun vs => ∀ v ∈ vs, v.IsCanonical) ?_ ?_ (by simp) h
    · intro sofar s next rest each step
      rcases item_eq_ok step with ⟨v, s', item, same⟩ | same
      · cases same
        exact List.forall_mem_cons.mpr ⟨reads s' v rest item, each⟩
      · cases same
    · intro sofar s last rest each step
      rcases item_eq_ok step with ⟨v, s', item, same⟩ | same
      · cases same
      · cases same
        exact fun v hv => each v (List.mem_reverse.mp hv)
  exact .array items

theorem isCanonical_of_repeated_member (reads : ReadsCanonical read)
    {ms : Option (List (String × Json))} {s rest : Bytes}
    (h : repeated (member read) none s = .ok (ms, rest)) :
    (object (ms.getD [])).IsCanonical := by
  have members : AreCanonical (ms.getD []) := by
    refine of_repeatedAtMost (P := fun sofar => AreCanonical (sofar.getD []))
      (Q := fun sofar => AreCanonical (sofar.getD [])) ?_ ?_ areCanonical_nil h
    · intro sofar s next rest canonical step
      rcases member_eq_ok step with ⟨name, v, s', member, same⟩ | same
      · cases same
        exact canonical.insert name (reads s' v rest member)
      · cases same
    · intro sofar s last rest canonical step
      rcases member_eq_ok step with ⟨name, v, s', member, same⟩ | same
      · cases same
      · cases same
        exact canonical
  exact .object members.order members.each

end Steps

/-- What is left of a value is canonical, whatever its shape. -/
theorem readsCanonical_remainder {inner : Option (Reader Json)}
    (reads : ∀ read ∈ inner, ReadsCanonical read) (shape : Shape) :
    ReadsCanonical (remainder inner shape) := by
  intro s v rest h
  cases shape with
  | null | bool | number | string =>
      cases h
      constructor
  | sequence =>
      cases inner with
      | none => cases h
      | some read =>
          obtain ⟨⟨vs, rest'⟩, items, h⟩ := map_eq_ok.mp h
          cases h
          exact isCanonical_of_repeated_item (reads read rfl) items
  | map =>
      cases inner with
      | none => cases h
      | some read =>
          obtain ⟨⟨ms, rest'⟩, members, h⟩ := map_eq_ok.mp h
          cases h
          exact isCanonical_of_repeated_member (reads read rfl) members

/-- However deep a value is, all of it is canonical. -/
theorem readsCanonical_value (depth : Nat) : ReadsCanonical (value depth) := by
  induction depth with
  | zero =>
      intro s v rest h
      obtain ⟨⟨shape, left⟩, -, h⟩ := bind_eq_ok.mp h
      refine readsCanonical_remainder (fun read hread => ?_) shape left v rest h
      exact absurd hread (Option.not_mem_none read)
  | succ depth ih =>
      intro s v rest h
      obtain ⟨⟨shape, left⟩, -, h⟩ := bind_eq_ok.mp h
      refine readsCanonical_remainder (fun read hread => ?_) shape left v rest h
      cases hread
      exact ih

/-- What is read from a body is canonical. -/
theorem isCanonical_of_decode {text : Bytes} {v : Json} (h : decode text = .ok v) :
    v.IsCanonical := by
  unfold decode at h
  split at h
  · rename_i read parsed
    cases h
    obtain ⟨⟨v', rest⟩, read, parsed⟩ := bind_eq_ok.mp parsed
    obtain ⟨⟨⟩, -, parsed⟩ := bind_eq_ok.mp parsed
    cases parsed
    exact readsCanonical_value depthLimit text v rest read
  · cases h

end RegionApi.Json
