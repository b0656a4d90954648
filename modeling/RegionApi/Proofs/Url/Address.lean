import Mathlib.Data.List.Basic
import Mathlib.Data.List.TakeWhile
import RegionApi.Proofs.Text.Digits
import RegionApi.Proofs.Text.Percent
import RegionApi.Url.Address

/-!
# Internet addresses are read back

Both kinds of address are read back from their canonical form (`Ipv4.read?_text`,
`Ipv6.read?_text`). An IPv6 address leaves out a stretch of zero groups at its only double colon;
the groups on both sides tell how many there were.
-/

namespace RegionApi

open Text (decimal hexadecimal)

/-! ## IPv4 -/

namespace Ipv4

variable (x : Ipv4)

/-- The numbers between the dots. -/
def numbers : List Nat := [x.a.toNat, x.b.toNat, x.c.toNat, x.d.toNat]

theorem lt_of_mem_numbers : ∀ n ∈ x.numbers, n < 256 := by
  simp only [numbers, List.forall_mem_cons]
  exact ⟨x.a.toNat_lt_size, x.b.toNat_lt_size, x.c.toNat_lt_size, x.d.toNat_lt_size, by simp⟩

/-- The dotted form is the numbers with dots between them. -/
theorem text_eq : x.text = ['.'].intercalate (x.numbers.map decimal) := by
  simp [text, numbers, List.intercalate_cons_cons]

theorem dot_notMem_decimal (n : Nat) : '.' ∉ decimal n := fun h =>
  absurd (Text.isDigit_of_mem_decimal h) (by decide)

theorem parts_text : parts x.text = x.numbers.map decimal := by
  have split : List.splitOn '.' x.text = x.numbers.map decimal := by
    rw [text_eq]
    refine List.splitOn_intercalate '.' ?_ (by simp [numbers])
    intro part hpart
    obtain ⟨n, -, rfl⟩ := List.mem_map.mp hpart
    exact dot_notMem_decimal n
  unfold parts
  rw [split]
  refine if_neg ?_
  simp [numbers, Text.decimal_ne_nil]

/-- No number of a dotted form is octal or hexadecimal once it is written. -/
theorem number?_decimal : ∀ n < 256, number? (decimal n) = some n := by decide +kernel

theorem mapM_number?_decimal {ns : List Nat} (small : ∀ n ∈ ns, n < 256) :
    (ns.map decimal).mapM number? = some ns := by
  induction ns with
  | nil => rfl
  | cons n ns ih =>
      obtain ⟨first, others⟩ := List.forall_mem_cons.mp small
      rw [List.map_cons, List.mapM_cons, number?_decimal n first, ih others]
      rfl

/-- The address of four bytes is made of them. -/
theorem ofNumbers?_numbers : ofNumbers? x.numbers = some x := by
  have small : x.a.toNat < 256 ∧ x.b.toNat < 256 ∧ x.c.toNat < 256 ∧ x.d.toNat < 256 := by
    simpa [numbers] using x.lt_of_mem_numbers
  obtain ⟨a, b, c, d⟩ := small
  obtain ⟨xa, xb, xc, xd⟩ := x
  simp only at a b c d
  have whole : ofNat (((256 * (256 * xa.toNat + xb.toNat) + xc.toNat) * 256) + xd.toNat) =
      ⟨xa, xb, xc, xd⟩ := by
    simp only [ofNat, mk.injEq, ← UInt8.toNat_inj, UInt8.toNat_ofNat']
    omega
  simp [ofNumbers?, numbers, a, b, c, d, whole]

/-- A dotted form is meant as an address. -/
theorem isMeant_text : isMeant x.text = true := by
  have digits : (decimal x.d.toNat).all Char.isDigit = true :=
    List.all_eq_true.mpr fun c hc => Text.isDigit_of_mem_decimal hc
  unfold isMeant
  rw [parts_text]
  simp [numbers, digits, Text.decimal_ne_nil]

/-- An address is read back from its dotted form. -/
theorem read?_text : read? x.text = some x := by
  rw [read?, parts_text, mapM_number?_decimal x.lt_of_mem_numbers]
  exact ofNumbers?_numbers x

/-- A dotted form is made of digits and dots. -/
theorem exists_of_mem_text {c : Char} (h : c ∈ x.text) :
    (∃ d < 10, c = d.digitChar) ∨ c = '.' := by
  rw [text_eq] at h
  rcases Text.mem_intercalate h with h | ⟨part, hpart, h⟩
  · exact .inr (List.mem_singleton.mp h)
  · obtain ⟨n, -, rfl⟩ := List.mem_map.mp hpart
    exact .inl (Text.exists_of_mem_toDigits (by decide) h)

end Ipv4

/-! ## IPv6 -/

namespace Ipv6

/-! ### Groups -/

theorem colon_notMem_groupText (g : UInt16) : ':' ∉ groupText g :=
  Text.ne_of_mem_hexadecimal (by decide)

theorem dot_notMem_groupText (g : UInt16) : '.' ∉ groupText g :=
  Text.ne_of_mem_hexadecimal (by decide)

theorem groupText_ne_nil (g : UInt16) : groupText g ≠ [] := Text.hexadecimal_ne_nil _

theorem group?_groupText (g : UInt16) : group? (groupText g) = some g := by
  have least : 1 ≤ (groupText g).length :=
    List.length_pos_iff.mpr (groupText_ne_nil g)
  have most : (groupText g).length ≤ 4 :=
    (Nat.length_toDigits_le_iff (by decide) (by decide)).mpr g.toNat_lt_size
  rw [group?, if_pos ⟨least, most⟩, groupText, Text.readDigits?_hexadecimal]
  simp

theorem joined_singleton (g : UInt16) : joined [g] = groupText g :=
  List.intercalate_singleton

theorem joined_cons_cons (g g' : UInt16) (gs : List UInt16) :
    joined (g :: g' :: gs) = groupText g ++ ':' :: joined (g' :: gs) := by
  simp [joined, List.intercalate_cons_cons]

theorem joined_eq_nil_iff {gs : List UInt16} : joined gs = [] ↔ gs = [] := by
  refine ⟨fun h => ?_, fun h => by rw [h]; rfl⟩
  cases gs with
  | nil => rfl
  | cons g gs =>
      have first : groupText g = [] := by
        cases gs with
        | nil => rwa [joined_singleton] at h
        | cons g' gs =>
            rw [joined_cons_cons] at h
            exact (List.append_eq_nil_iff.mp h).1
      exact absurd first (groupText_ne_nil g)

theorem splitOn_joined {gs : List UInt16} (h : gs ≠ []) :
    List.splitOn ':' (joined gs) = gs.map groupText := by
  refine List.splitOn_intercalate ':' ?_ (by simpa using h)
  intro part hpart
  obtain ⟨g, -, rfl⟩ := List.mem_map.mp hpart
  exact colon_notMem_groupText g

/-- Groups are read back one by one; none of them is taken for a dotted address. -/
theorem groups?_groupText (dotted : Bool) (gs : List UInt16) :
    groups? dotted (gs.map groupText) = some gs := by
  induction gs with
  | nil => rfl
  | cons g gs ih =>
      cases gs with
      | nil => simp [groups?, group?_groupText, dot_notMem_groupText]
      | cons g' gs =>
          simp only [List.map_cons] at ih ⊢
          rw [groups?, group?_groupText, ih]
          · rfl
          · simp

/-- One side of the double colon is read back. -/
theorem side?_joined (dotted : Bool) (gs : List UInt16) : side? dotted (joined gs) = some gs := by
  unfold side?
  split
  · rename_i none
    rw [joined_eq_nil_iff.mp none]
  · rename_i some
    rw [splitOn_joined fun none => some (joined_eq_nil_iff.mpr none)]
    exact groups?_groupText dotted gs

/-! ### The double colon -/

theorem splitDouble?_cons_of_ne {c : Char} (h : c ≠ ':') (rest : List Char) :
    splitDouble? (c :: rest) =
      (splitDouble? rest).map fun (before, after) => (c :: before, after) := by
  rw [splitDouble?]
  rintro rest' rfl
  exact absurd rfl h

/-- A colon that no other follows is not a double one. -/
theorem splitDouble?_colon {rest : List Char} (h : rest.head? ≠ some ':') :
    splitDouble? (':' :: rest) =
      (splitDouble? rest).map fun (before, after) => (':' :: before, after) := by
  rw [splitDouble?]
  rintro rest' - rfl
  exact absurd rfl h

theorem splitDouble?_append_of_notMem {cs : List Char} (h : ':' ∉ cs) (rest : List Char) :
    splitDouble? (cs ++ rest) =
      (splitDouble? rest).map fun (before, after) => (cs ++ before, after) := by
  induction cs with
  | nil => simp
  | cons c cs ih =>
      obtain ⟨first, others⟩ := List.ne_and_not_mem_of_not_mem_cons h
      rw [List.cons_append, splitDouble?_cons_of_ne first.symm, ih others, Option.map_map]
      rfl

/-- Groups do not begin with a colon. -/
theorem head?_joined_append_ne (g : UInt16) (gs : List UInt16) (rest : List Char) :
    (joined (g :: gs) ++ rest).head? ≠ some ':' := by
  intro colon
  have first : (joined (g :: gs) ++ rest).head? = (groupText g).head? := by
    cases gs with
    | nil => rw [joined_singleton, List.head?_append_of_ne_nil _ (groupText_ne_nil g)]
    | cons g' gs =>
        rw [joined_cons_cons, List.append_assoc,
          List.head?_append_of_ne_nil _ (groupText_ne_nil g)]
  rw [first] at colon
  exact colon_notMem_groupText g (List.mem_of_head? colon)

/-- There is no double colon among groups, and none between the last of them and what follows. -/
theorem splitDouble?_joined_append (gs : List UInt16) (rest : List Char) :
    splitDouble? (joined gs ++ rest) =
      (splitDouble? rest).map fun (before, after) => (joined gs ++ before, after) := by
  induction gs with
  | nil => simp [joined]
  | cons g gs ih =>
      cases gs with
      | nil =>
          rw [joined_singleton, splitDouble?_append_of_notMem (colon_notMem_groupText g)]
      | cons g' gs =>
          rw [joined_cons_cons, List.append_assoc,
            splitDouble?_append_of_notMem (colon_notMem_groupText g), List.cons_append,
            splitDouble?_colon (head?_joined_append_ne g' gs rest), ih, Option.map_map,
            Option.map_map]
          congr 1
          funext pair
          simp

/-! ### The stretch that is left out -/

/-- The stretch that is found holds zeros alone. -/
theorem take_drop_zeros (gs : List UInt16) :
    (gs.drop (zeros gs).1).take (zeros gs).2 = List.replicate (zeros gs).2 0 := by
  have stretch (i : Nat) : (gs.drop i).take ((gs.drop i).takeWhile (· = 0)).length =
      List.replicate ((gs.drop i).takeWhile (· = 0)).length 0 := by
    rw [← List.prefix_iff_eq_take.mp (List.takeWhile_prefix _)]
    refine List.eq_replicate_iff.mpr ⟨rfl, fun g hg => ?_⟩
    simpa using List.mem_takeWhile_imp hg
  unfold zeros
  -- Whatever places are still to be looked at, the best stretch so far holds zeros alone.
  refine List.foldlRecOn (List.range gs.length) _
    (motive := fun best : Nat × Nat =>
      (gs.drop best.1).take best.2 = List.replicate best.2 0) rfl ?_
  intro best holds i _
  dsimp only
  split
  · exact stretch i
  · exact holds

/-- Groups before the stretch, the stretch, and groups behind it are all there is. -/
theorem eq_append_zeros (gs : List UInt16) :
    gs.take (zeros gs).1 ++ List.replicate (zeros gs).2 0 ++
      gs.drop ((zeros gs).1 + (zeros gs).2) = gs := by
  rw [← take_drop_zeros, List.append_assoc, ← List.drop_drop, List.take_append_drop,
    List.take_append_drop]

/-- A form without a double colon has all its groups. -/
theorem read?_joined (gs : List UInt16) : read? (joined gs) = ofGroups? gs := by
  have single : splitDouble? (joined gs) = none := by
    simpa [splitDouble?] using splitDouble?_joined_append gs []
  rw [read?, single]
  dsimp only
  rw [side?_joined, Option.bind_some]

/-- A double colon stands for the zero groups that are missing between those before and those behind
it. -/
theorem read?_double {before after : List UInt16} {n : Nat} (some : 0 < n)
    (eight : before.length + n + after.length = 8) :
    read? (joined before ++ ':' :: ':' :: joined after) =
      ofGroups? (before ++ List.replicate n 0 ++ after) := by
  have between : splitDouble? (joined before ++ ':' :: ':' :: joined after) =
      .some (joined before, joined after) := by
    rw [splitDouble?_joined_append]
    simp [splitDouble?]
  have missing : 8 - (before.length + after.length) = n := by omega
  have room : before.length + after.length < 8 := by omega
  rw [read?, between]
  dsimp only
  rw [side?_joined, side?_joined]
  simp only [Option.bind_eq_bind, Option.bind_some, if_pos room, missing]

/-- An address is read back from its canonical form. -/
theorem read?_text (x : Ipv6) : read? x.text = some x := by
  have whole : ofGroups? x.groups = some x := dif_pos x.eight
  unfold text
  dsimp only
  split
  · rw [read?_joined, whole]
  · rename_i two
    have sides := eq_append_zeros x.groups
    have eight := congrArg List.length sides
    rw [x.eight, List.length_append, List.length_append, List.length_replicate] at eight
    rw [read?_double (by omega) eight, sides, whole]

theorem mem_joined {gs : List UInt16} {c : Char} (h : c ∈ joined gs) :
    (∃ d < 16, c = d.digitChar) ∨ c = ':' := by
  rcases Text.mem_intercalate h with h | ⟨part, hpart, h⟩
  · exact .inr (List.mem_singleton.mp h)
  · obtain ⟨g, -, rfl⟩ := List.mem_map.mp hpart
    exact .inl (Text.exists_of_mem_toDigits (by decide) h)

/-- A canonical form is made of hexadecimal digits and colons. -/
theorem exists_of_mem_text {x : Ipv6} {c : Char} (h : c ∈ x.text) :
    (∃ d < 16, c = d.digitChar) ∨ c = ':' := by
  unfold text at h
  dsimp only at h
  split at h
  · exact mem_joined h
  · rcases List.mem_append.mp h with h | h
    · exact mem_joined h
    · simp only [List.mem_cons] at h
      rcases h with rfl | rfl | h
      · exact .inr rfl
      · exact .inr rfl
      · exact mem_joined h

end Ipv6

end RegionApi
