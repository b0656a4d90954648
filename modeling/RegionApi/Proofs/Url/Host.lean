import RegionApi.Proofs.Url.Address
import RegionApi.Proofs.Url.Escape
import RegionApi.Url.Host

/-!
# Hosts of the web are read back

Reading brings a host in its normal spelling (`isNormal_of_read`): a name in ASCII that no address
is meant by, or an address. A host in its normal spelling is read back from its text
(`IsNormal.read_text`).
-/

namespace RegionApi.Url.Host

/-! ## Characters of hosts -/

theorem isPlain_of_forbidden {c : Char} (h : forbidden c = false) : Escape.isPlain c = true := by
  simp only [forbidden, Bool.or_eq_false_iff, decide_eq_false_iff_not] at h
  simp only [Escape.isPlain, Bool.and_eq_true, decide_eq_true_eq]
  omega

theorem forbidden_digitChar : ∀ d < 16, forbidden d.digitChar = false := by decide

theorem forbidden_of_mem_ipv4 {x : Ipv4} {c : Char} (h : c ∈ x.text) : forbidden c = false := by
  rcases x.exists_of_mem_text h with ⟨d, small, rfl⟩ | rfl
  · exact forbidden_digitChar d (by omega)
  · decide

/-- A character of an IPv4 address is ASCII and has no case, and no label that begins with it claims
to be encoded. -/
theorem plain_of_mem_ipv4 {x : Ipv4} {c : Char} (h : c ∈ x.text) :
    c.toLower = c ∧ c.toNat < 128 ∧ c ≠ 'x' := by
  have digits : ∀ d < 10, d.digitChar.toLower = d.digitChar ∧ d.digitChar.toNat < 128 ∧
      d.digitChar ≠ 'x' := by decide
  rcases x.exists_of_mem_text h with ⟨d, small, rfl⟩ | rfl
  · exact digits d small
  · decide

theorem mem_of_hasEncodedLabel {cs : List Char} (h : hasEncodedLabel cs = true) : 'x' ∈ cs := by
  induction cs with
  | nil => cases h
  | cons c cs ih =>
      rcases Bool.or_eq_true_iff.mp h with here | later
      · obtain ⟨rest, rfl⟩ := List.isPrefixOf_iff_prefix.mp (Bool.and_eq_true_iff.mp here).2
        simp
      · exact List.mem_cons_of_mem c (ih later)

variable [HostNames]

/-! ## Normal spellings -/

/-- Whether a host is in the spelling that reading brings. -/
inductive IsNormal : Host → Prop where
  | name {s : String} (some : s ≠ "") (allowed : ∀ c ∈ s.toList, forbidden c = false)
      (ascii : HostNames.toAscii? s.toList = .some s.toList)
      (plain : Ipv4.isMeant s.toList = false) : IsNormal (name s)
  | v4 (x : Ipv4) : IsNormal (v4 x)
  | v6 (x : Ipv6) : IsNormal (v6 x)

/-- The text of an address is a name that stands for itself. -/
theorem toAscii?_ipv4 (x : Ipv4) : HostNames.toAscii? x.text = some x.text := by
  have lower : x.text.map Char.toLower = x.text := by
    rw [List.map_congr_left fun c hc => (plain_of_mem_ipv4 hc).1, List.map_id']
  have plain : isPlainHost x.text = true := by
    rw [isPlainHost, lower]
    refine Bool.and_eq_true_iff.mpr ⟨List.all_eq_true.mpr fun c hc => ?_, ?_⟩
    · exact decide_eq_true (plain_of_mem_ipv4 hc).2.1
    · rw [Bool.not_eq_true', Bool.eq_false_iff]
      intro encoded
      rcases List.mem_cons.mp (mem_of_hasEncodedLabel encoded) with mark | inside
      · exact absurd mark (by decide)
      · exact (plain_of_mem_ipv4 inside).2.2 rfl
  rw [HostNames.toAscii?_of_isPlainHost plain, lower]

theorem IsNormal.text_ne_nil {h : Host} (normal : h.IsNormal) : h.text ≠ [] := by
  cases normal with
  | name some allowed ascii plain => exact fun none => some (String.toList_eq_nil_iff.mp none)
  | v4 x =>
      intro none
      have same := x.read?_text
      rw [show x.text = [] from none] at same
      cases same
  | v6 x => exact List.cons_ne_nil _ _

/-- The text of a host holds allowed characters, and of the others only those that an IPv6 address
is written with. -/
theorem IsNormal.forbidden_of_mem_text {h : Host} (normal : h.IsNormal) {c : Char}
    (hc : c ∈ h.text) : forbidden c = false ∨ c ∈ ['[', ':', ']'] := by
  cases normal with
  | name some allowed ascii plain => exact .inl (allowed c hc)
  | v4 x => exact .inl (forbidden_of_mem_ipv4 hc)
  | v6 x =>
      rcases List.mem_cons.mp hc with rfl | hc
      · exact .inr (by simp)
      · rcases List.mem_append.mp hc with hc | hc
        · rcases Ipv6.exists_of_mem_text hc with ⟨d, small, rfl⟩ | rfl
          · exact .inl (forbidden_digitChar d small)
          · exact .inr (by simp)
        · exact .inr (by simp [List.mem_singleton.mp hc])

theorem IsNormal.notMem_text {h : Host} (normal : h.IsNormal) {c : Char}
    (never : forbidden c = true) (other : c ∉ ['[', ':', ']']) : c ∉ h.text := by
  intro hc
  rcases normal.forbidden_of_mem_text hc with allowed | mark
  · rw [never] at allowed
    cases allowed
  · exact other mark

theorem IsNormal.isPlain_of_mem_text {h : Host} (normal : h.IsNormal) {c : Char}
    (hc : c ∈ h.text) : Escape.isPlain c = true := by
  rcases normal.forbidden_of_mem_text hc with allowed | mark
  · exact isPlain_of_forbidden allowed
  · simp only [List.mem_cons, List.not_mem_nil, or_false] at mark
    rcases mark with rfl | rfl | rfl <;> decide

/-! ## Reading -/

/-- Text of allowed characters is read as it stands. -/
theorem read_eq_readName {cs : List Char} (allowed : ∀ c ∈ cs, forbidden c = false) :
    read cs = readName cs := by
  have percent : '%' ∉ cs := fun h => absurd (allowed _ h) (by decide)
  have spelled : Text.ofUtf8? (Text.Percent.decodeChars cs) = some (String.ofList cs) := by
    rw [Text.Percent.decodeChars_of_notMem percent]
    simpa [Text.utf8] using Text.ofUtf8?_utf8 (String.ofList cs)
  unfold read
  split
  · rename_i rest
    exact absurd (allowed '[' List.mem_cons_self) (by decide)
  · rw [spelled]
    simp only [String.toList_ofList]

theorem readName_eq {cs : List Char} (some : cs ≠ [])
    (allowed : ∀ c ∈ cs, forbidden c = false) (ascii : HostNames.toAscii? cs = .some cs) :
    readName cs =
      if Ipv4.isMeant cs then
        match Ipv4.read? cs with
        | .some x => .ok (v4 x)
        | none => .error .badIpv4
      else .ok (name (String.ofList cs)) := by
  have none : cs.any forbidden = false := by
    simpa [List.any_eq_false] using allowed
  simp only [readName, ascii, readAscii, if_neg some, none]
  rfl

/-- A host in its normal spelling is read back from its text. -/
theorem IsNormal.read_text {h : Host} (normal : h.IsNormal) : read h.text = .ok h := by
  cases normal with
  | @name s some allowed ascii plain =>
      have some : s.toList ≠ [] := (IsNormal.name some allowed ascii plain).text_ne_nil
      rw [text, read_eq_readName allowed, readName_eq some allowed ascii,
        if_neg (Bool.eq_false_iff.mp plain), String.ofList_toList]
  | v4 x =>
      have some : x.text ≠ [] := (IsNormal.v4 x).text_ne_nil
      have allowed : ∀ c ∈ x.text, forbidden c = false := fun c hc => forbidden_of_mem_ipv4 hc
      rw [text, read_eq_readName allowed, readName_eq some allowed (toAscii?_ipv4 x),
        if_pos x.isMeant_text, x.read?_text]
  | v6 x => simp [text, read, readBracketed, Ipv6.read?_text]

theorem isNormal_of_readBracketed {cs : List Char} {h : Host} (ok : readBracketed cs = .ok h) :
    h.IsNormal := by
  unfold readBracketed at ok
  split at ok
  · split at ok
    · cases ok
      exact .v6 _
    · cases ok
  · cases ok

theorem isNormal_of_readName {cs : List Char} {h : Host} (ok : readName cs = .ok h) :
    h.IsNormal := by
  unfold readName at ok
  split at ok
  · rename_i name mapped
    unfold readAscii at ok
    split at ok
    · cases ok
    · rename_i some
      split at ok
      · cases ok
      · rename_i any
        split at ok
        · split at ok
          · cases ok
            exact .v4 _
          · cases ok
        · rename_i plain
          cases ok
          refine .name ?_ ?_ ?_ ?_
          · simpa using some
          · rw [String.toList_ofList]
            simpa [List.any_eq_false] using any
          · rw [String.toList_ofList]
            exact HostNames.toAscii?_of_toAscii? mapped
          · rw [String.toList_ofList]
            exact Bool.eq_false_iff.mpr plain
  · cases ok

/-- Reading brings a host in its normal spelling. -/
theorem isNormal_of_read {cs : List Char} {h : Host} (ok : read cs = .ok h) : h.IsNormal := by
  unfold read at ok
  split at ok
  · exact isNormal_of_readBracketed ok
  · split at ok
    · exact isNormal_of_readName ok
    · cases ok

end RegionApi.Url.Host
