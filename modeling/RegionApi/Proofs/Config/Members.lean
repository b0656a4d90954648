import RegionApi.Config.OfJson
import RegionApi.Proofs.Except
import RegionApi.Proofs.Json.Members

/-!
# What the members of an object come to

The members of a configuration are put into a draft one after the other, none of them twice
(`Fills`). Each changes its own part of the draft and no other, so what they come to is told part by
part (`fills_iff`): their order does not matter, and neither do the members between them. An object
is the configuration that its members tell when they are looked up
(`ofJson_object_eq_ok_iff_tells`), and there is one exactly if each of them may be one of a
configuration (`exists_tells_iff`).
-/

namespace RegionApi.Config

open Json (Mismatch Shape find? Ascending)

/-! ## What a draft holds of a member -/

/-- What may be held of a member. -/
def Field.Held : Field → Type
  | url => Option String
  | apiKey => Option (Option String)
  | verifyTls => Option Bool
  | caCertificate => Option (Option String)
  | timeout => Option UInt64

namespace Draft

/-- What is held of a member. -/
def held (d : Draft) : (f : Field) → f.Held
  | .url => d.url
  | .apiKey => d.apiKey
  | .verifyTls => d.verifyTls
  | .caCertificate => d.caCertificate
  | .timeout => d.timeout

variable {d e : Draft} {f g : Field} {v : Shape}

theorem eq_of_held_eq (same : ∀ f, d.held f = e.held f) : d = e := by
  cases d
  cases e
  congr 1
  · exact same .url
  · exact same .apiKey
  · exact same .verifyTls
  · exact same .caCertificate
  · exact same .timeout

theorem has_eq_of_held_eq (same : d.held f = e.held f) : d.has f = e.has f := by
  cases f <;> exact congrArg Option.isSome same

/-- A member is there once it is put, and it is not told from the draft what is held of it then. -/
theorem held_put (fits : d.put f v = .ok e) :
    e.has f = true ∧ ∀ other : Draft, ∃ after, other.put f v = .ok after ∧
      after.held f = e.held f := by
  cases f <;>
  · obtain ⟨value, read, rfl⟩ := map_eq_ok.mp fits
    refine ⟨rfl, fun other => ⟨_, map_eq_ok.mpr ⟨value, read, rfl⟩, rfl⟩⟩

/-- Nothing else changes. -/
theorem held_put_of_ne (fits : d.put f v = .ok e) (other : g ≠ f) : e.held g = d.held g := by
  cases f <;>
  · obtain ⟨value, -, rfl⟩ := map_eq_ok.mp fits
    cases g <;> first | rfl | exact absurd rfl other

theorem has_put_of_ne (fits : d.put f v = .ok e) (other : g ≠ f) : e.has g = d.has g :=
  has_eq_of_held_eq (held_put_of_ne fits other)

/-- Whether a draft holds of a member what a value puts there, or nothing if there is no value. -/
def Shows (e : Draft) (f : Field) : Option Json → Prop
  | none => e.held f = empty.held f
  | some v => ∃ d, empty.put f v.shape = .ok d ∧ e.held f = d.held f

end Draft

/-! ## Filling a draft -/

/-- How values of a configuration are put into a draft, none of them twice. -/
inductive Fills : Draft → List (Field × Json) → Draft → Prop
  | nil (d : Draft) : Fills d [] d
  | cons {d e last : Draft} {f : Field} {v : Json} {ms : List (Field × Json)}
      (new : d.has f = false) (fits : d.put f v.shape = .ok e) (others : Fills e ms last) :
      Fills d ((f, v) :: ms) last

/-- Values fill a draft exactly if there is one for a member at most, each fits, and nothing else
comes about. -/
theorem fills_iff {d e : Draft} {ms : List (Field × Json)} :
    Fills d ms e ↔ (ms.map Prod.fst).Nodup ∧
      (∀ m ∈ ms, d.has m.1 = false ∧ e.Shows m.1 (some m.2)) ∧
      ∀ f, f ∉ ms.map Prod.fst → e.held f = d.held f := by
  induction ms generalizing d with
  | nil =>
      constructor
      · rintro ⟨⟩
        exact ⟨.nil, by simp, fun _ _ => rfl⟩
      · rintro ⟨-, -, same⟩
        obtain rfl := Draft.eq_of_held_eq fun f => same f (by simp)
        exact .nil e
  | cons m ms ih =>
      obtain ⟨f, v⟩ := m
      rw [List.map_cons, List.nodup_cons, List.forall_mem_cons]
      constructor
      · rintro (_ | ⟨new, fits, others⟩)
        rename_i next
        obtain ⟨once, each, same⟩ := ih.mp others
        obtain ⟨there, again⟩ := Draft.held_put fits
        have fresh : f ∉ ms.map Prod.fst := by
          intro second
          obtain ⟨m, hm, rfl⟩ := List.mem_map.mp second
          rw [(each m hm).1] at there
          cases there
        refine ⟨⟨fresh, once⟩, ⟨⟨new, ?_⟩, fun m hm => ⟨?_, (each m hm).2⟩⟩, fun g hg => ?_⟩
        · obtain ⟨alone, fits, held⟩ := again .empty
          exact ⟨alone, fits, (same f fresh).trans held.symm⟩
        · have apart : m.1 ≠ f := fun second => fresh (List.mem_map.mpr ⟨m, hm, second⟩)
          rw [← (each m hm).1, Draft.has_put_of_ne fits apart]
        · rw [List.mem_cons, not_or] at hg
          obtain ⟨apart, others⟩ := hg
          exact (same g others).trans (Draft.held_put_of_ne fits apart)
      · rintro ⟨⟨fresh, once⟩, ⟨⟨new, alone, fits, held⟩, each⟩, same⟩
        obtain ⟨next, fits, held'⟩ := (Draft.held_put fits).2 d
        refine .cons new fits (ih.mpr ⟨once, fun m hm => ⟨?_, (each m hm).2⟩, fun g hg => ?_⟩)
        · have apart : m.1 ≠ f := fun second => fresh (List.mem_map.mpr ⟨m, hm, second⟩)
          rw [← (each m hm).1, Draft.has_put_of_ne fits apart]
        · by_cases apart : g = f
          · subst apart
            exact held.trans held'.symm
          · rw [Draft.held_put_of_ne fits apart]
            exact same g (List.not_mem_cons_of_ne_of_not_mem apart hg)

/-- In which order values are put does not matter. -/
theorem Fills.perm {e : Draft} {ms ns : List (Field × Json)} (same : ms.Perm ns)
    (fills : Fills .empty ms e) : Fills .empty ns e := by
  obtain ⟨once, each, others⟩ := fills_iff.mp fills
  refine fills_iff.mpr ⟨(same.map _).nodup_iff.mp once, fun m hm => each m (same.mem_iff.mpr hm),
    fun f hf => others f fun h => hf ((same.map _).mem_iff.mp h)⟩

/-! ## Members of an object -/

/-- The members of a configuration among those of an object. -/
def known (ms : List (String × Json)) : List (Field × Json) :=
  ms.filterMap fun m => (Field.ofName? m.1).map fun f => (f, m.2)

/-- The members of an object that some values of a configuration make. -/
def named (ms : List (Field × Json)) : List (String × Json) := ms.map fun m => (m.1.name, m.2)

section Known

variable {d e : Draft} {c : Config} {f : Field} {name : String} {ms : List (String × Json)}

theorem ofName?_eq_some_iff : Field.ofName? name = some f ↔ name = f.name := by
  constructor
  · intro found
    have same := List.find?_some found
    exact (of_decide_eq_true same).symm
  · rintro rfl
    exact Field.ofName?_name f

theorem known_cons (m : String × Json) (ms : List (String × Json)) :
    known (m :: ms) = ((Field.ofName? m.1).map fun f => (f, m.2)).toList ++ known ms := by
  cases found : Field.ofName? m.1 <;> simp [known, found]

@[simp] theorem known_named (ms : List (Field × Json)) : known (named ms) = ms := by
  induction ms with
  | nil => rfl
  | cons m ms ih =>
      rw [named, List.map_cons, known_cons, Field.ofName?_name, ← named, ih]
      rfl

/-- Only the members of a configuration are read. -/
theorem readMembers_eq_ok_iff : readMembers d ms = .ok e ↔ Fills d (known ms) e := by
  induction ms generalizing d with
  | nil =>
      constructor
      · rintro ⟨⟩
        exact .nil _
      · rintro ⟨⟩
        rfl
  | cons m ms ih =>
      obtain ⟨name, v⟩ := m
      rw [readMembers, known_cons]
      cases Field.ofName? name with
      | none => exact ih
      | some f =>
          show (if d.has f = true then _ else _) = _ ↔ Fills d ((f, v) :: known ms) e
          cases new : d.has f with
          | true =>
              constructor
              · rintro ⟨⟩
              · rintro (_ | ⟨new'⟩)
                rw [new] at new'
                cases new'
          | false =>
              rw [if_neg Bool.false_ne_true, bind_eq_ok]
              constructor
              · rintro ⟨next, fits, others⟩
                exact .cons new fits (ih.mp others)
              · rintro (_ | ⟨-, fits, others⟩)
                exact ⟨_, fits, ih.mpr others⟩

theorem ofJson_object_eq_ok_iff :
    ofJson (.object ms) = .ok c ↔ ∃ e, Fills .empty (known ms) e ∧ e.finish = .ok c := by
  rw [ofJson, bind_eq_ok]
  simp only [readMembers_eq_ok_iff]

/-- Objects with the same members of a configuration, in whatever order and among whatever others,
are the same configuration. -/
theorem ofJson_object_eq_ok_iff_of_perm {ns : List (String × Json)}
    (same : (known ms).Perm (known ns)) :
    ofJson (.object ms) = .ok c ↔ ofJson (.object ns) = .ok c := by
  rw [ofJson_object_eq_ok_iff, ofJson_object_eq_ok_iff]
  exact exists_congr fun e => and_congr_left fun _ => ⟨.perm same, .perm same.symm⟩

end Known

/-! ## Looking members up -/

section Ascending

variable {e : Draft} {f : Field} {ms : List (String × Json)} (order : Ascending ms)
include order

theorem mem_iff_find?_eq_some {m : String × Json} : m ∈ ms ↔ find? m.1 ms = some m.2 := by
  induction ms with
  | nil => simp [find?]
  | cons n ms ih =>
      obtain ⟨less, rest⟩ := List.pairwise_cons.mp order
      rw [List.mem_cons, find?, ih rest]
      by_cases same : n.1 = m.1
      · have none : find? m.1 ms = none :=
          Json.find?_eq_none_of_lt fun k hk => same ▸ less k hk
        rw [if_pos same, none, Option.some_inj]
        constructor
        · rintro (rfl | absent)
          · rfl
          · cases absent
        · exact fun value => .inl (Prod.ext same.symm value.symm)
      · rw [if_neg same]
        exact or_iff_right fun first => same (by rw [first])

theorem mem_known_iff {v : Json} : (f, v) ∈ known ms ↔ find? f.name ms = some v := by
  rw [← mem_iff_find?_eq_some order (m := (f.name, v)), known, List.mem_filterMap]
  constructor
  · rintro ⟨⟨name, w⟩, hm, found⟩
    obtain ⟨g, read, same⟩ := Option.map_eq_some_iff.mp found
    cases same
    rw [← ofName?_eq_some_iff.mp read]
    exact hm
  · intro hm
    exact ⟨_, hm, by rw [Field.ofName?_name]; rfl⟩

theorem nodup_known : ((known ms).map Prod.fst).Nodup := by
  induction ms with
  | nil => exact .nil
  | cons m ms ih =>
      obtain ⟨less, rest⟩ := List.pairwise_cons.mp order
      rw [known_cons]
      cases found : Field.ofName? m.1 with
      | none => exact ih rest
      | some f =>
          refine List.nodup_cons.mpr ⟨fun second => ?_, ih rest⟩
          obtain ⟨⟨g, v⟩, hm, same⟩ := List.mem_map.mp second
          obtain rfl : g = f := same
          have there := (mem_known_iff rest).mp hm
          have fresh : find? g.name ms = none :=
            Json.find?_eq_none_of_lt fun n hn => ofName?_eq_some_iff.mp found ▸ less n hn
          rw [fresh] at there
          cases there

/-- What members come to is told by looking them up. -/
theorem fills_known_iff : Fills .empty (known ms) e ↔ ∀ f, e.Shows f (find? f.name ms) := by
  rw [fills_iff]
  constructor
  · rintro ⟨-, each, same⟩ f
    cases found : find? f.name ms with
    | none =>
        refine same f fun there => ?_
        obtain ⟨⟨g, v⟩, hm, rfl⟩ := List.mem_map.mp there
        rw [(mem_known_iff order).mp hm] at found
        cases found
    | some v => exact (each (f, v) ((mem_known_iff order).mpr found)).2
  · intro shows
    refine ⟨nodup_known order, fun m hm => ⟨Draft.has_empty m.1, ?_⟩, fun f fresh => ?_⟩
    · rw [← (mem_known_iff order).mp hm]
      exact shows m.1
    · have told := shows f
      cases found : find? f.name ms with
      | none => rwa [found] at told
      | some v =>
          exact absurd (List.mem_map.mpr ⟨_, (mem_known_iff order).mpr found, rfl⟩) fresh

end Ascending

/-! ## Which values fit -/

section Fit

variable {v : Json} {n : UInt64}

theorem text_shape_eq_ok_iff {expected s : String} :
    v.shape.text expected = .ok s ↔ v = .string s := by
  cases v <;> simp [Json.shape, Shape.text]

theorem optional_text_shape_eq_ok_iff {expected : String} {t : Option String} :
    v.shape.optional (·.text expected) = .ok t ↔
      v = .null ∧ t = none ∨ ∃ s, v = .string s ∧ t = some s := by
  cases v <;> simp [Json.shape, Shape.optional, Shape.text, Except.map, eq_comm]

theorem truth_shape_eq_ok_iff {b : Bool} : v.shape.truth = .ok b ↔ v = .bool b := by
  cases v <;> simp [Json.shape, Shape.truth]

/-- An integer is read as a word exactly if it is that of the word. -/
theorem toUInt64?_eq_some_iff {i : Json.Integer} : i.toUInt64? = some n ↔ i = .ofUInt64 n := by
  constructor
  · intro read
    obtain ⟨i, lower, upper⟩ := i
    rw [Json.Integer.toUInt64?] at read
    split at read
    · rename_i natural
      cases read
      have natural : 0 ≤ i := natural
      have small : i.toNat < UInt64.size := by
        simp only [UInt64.size]
        omega
      simp only [Json.Integer.ofUInt64, Json.Integer.mk.injEq, UInt64.toNat_ofNat_of_lt' small]
      omega
    · cases read
  · rintro rfl
    exact Json.Integer.toUInt64?_ofUInt64 n

theorem word_shape_eq_ok_iff : v.shape.word = .ok n ↔ v = .number (.integer (.ofUInt64 n)) := by
  cases v with
  | number x =>
      cases x with
      | integer i =>
          rw [Json.shape, Shape.word]
          simp only [Json.number.injEq, Json.Number.integer.injEq, ← toUInt64?_eq_some_iff]
          cases i.toUInt64? <;> simp
      | float x => simp [Json.shape, Shape.word]
  | _ => simp [Json.shape, Shape.word]

end Fit

/-! ## What is found of a member -/

/-- Which optional text is told by what is found: none by nothing and by null. -/
inductive TellsText : Option Json → Option String → Prop
  | absent : TellsText none none
  | null : TellsText (some .null) none
  | string (s : String) : TellsText (some (.string s)) (some s)

/-- Which truth value is told by what is found: truth by nothing. -/
inductive TellsTruth : Option Json → Bool → Prop
  | absent : TellsTruth none true
  | bool (b : Bool) : TellsTruth (some (.bool b)) b

/-- How many seconds are told by what is found: the usual ones by nothing. -/
inductive TellsSeconds : Option Json → UInt64 → Prop
  | absent : TellsSeconds none 30
  | integer (n : UInt64) : TellsSeconds (some (.number (.integer (.ofUInt64 n)))) n

/-- Whether a configuration is what the members of an object tell. -/
structure Tells (ms : List (String × Json)) (c : Config) : Prop where
  url : find? Field.url.name ms = some (.string c.url)
  apiKey : TellsText (find? Field.apiKey.name ms) c.apiKey
  verifyTls : TellsTruth (find? Field.verifyTls.name ms) c.verifyTls
  caCertificate : TellsText (find? Field.caCertificate.name ms) c.caCertificate
  timeout : TellsSeconds (find? Field.timeout.name ms) c.timeoutSeconds

/-- Whether the members of an object may be those of a configuration. -/
structure AreAcceptable (ms : List (String × Json)) : Prop where
  url : ∃ s, find? Field.url.name ms = some (.string s)
  apiKey : ∀ v, find? Field.apiKey.name ms = some v → v = .null ∨ ∃ s, v = .string s
  verifyTls : ∀ v, find? Field.verifyTls.name ms = some v → ∃ b, v = .bool b
  caCertificate : ∀ v, find? Field.caCertificate.name ms = some v → v = .null ∨ ∃ s, v = .string s
  timeout : ∀ v, find? Field.timeout.name ms = some v →
    ∃ i : Json.Integer, v = .number (.integer i) ∧ 0 ≤ i.value ∧ i.value < 0x10000000000000000

section Found

variable {o : Option Json}

theorem exists_tellsText_iff :
    (∃ t, TellsText o t) ↔ ∀ v, o = some v → v = .null ∨ ∃ s, v = .string s := by
  constructor
  · rintro ⟨t, tells⟩ v rfl
    cases tells with
    | null => exact .inl rfl
    | string s => exact .inr ⟨s, rfl⟩
  · intro may
    cases o with
    | none => exact ⟨none, .absent⟩
    | some v =>
        rcases may v rfl with rfl | ⟨s, rfl⟩
        · exact ⟨none, .null⟩
        · exact ⟨some s, .string s⟩

theorem exists_tellsTruth_iff : (∃ b, TellsTruth o b) ↔ ∀ v, o = some v → ∃ b, v = .bool b := by
  constructor
  · rintro ⟨b, tells⟩ v rfl
    cases tells
    exact ⟨b, rfl⟩
  · intro may
    cases o with
    | none => exact ⟨true, .absent⟩
    | some v =>
        obtain ⟨b, rfl⟩ := may v rfl
        exact ⟨b, .bool b⟩

theorem exists_tellsSeconds_iff :
    (∃ n, TellsSeconds o n) ↔ ∀ v, o = some v → ∃ i : Json.Integer, v = .number (.integer i) ∧
      0 ≤ i.value ∧ i.value < 0x10000000000000000 := by
  constructor
  · rintro ⟨n, tells⟩ v rfl
    cases tells
    exact ⟨.ofUInt64 n, rfl, Int.natCast_nonneg _, Int.ofNat_lt.mpr n.toNat_lt⟩
  · intro may
    cases o with
    | none => exact ⟨30, .absent⟩
    | some v =>
        obtain ⟨i, rfl, natural, -⟩ := may v rfl
        have read : i.toUInt64? = some (UInt64.ofNat i.value.toNat) := if_pos natural
        rw [toUInt64?_eq_some_iff.mp read]
        exact ⟨_, .integer _⟩

theorem tellsText_none_iff (t : Option String) : TellsText none t ↔ t = none := by
  constructor
  · rintro ⟨⟩
    rfl
  · rintro rfl
    exact .absent

theorem tellsText_some_iff {v : Json} {expected : String} (t : Option String) :
    TellsText (some v) t ↔ v.shape.optional (·.text expected) = .ok t := by
  rw [optional_text_shape_eq_ok_iff]
  constructor
  · rintro (_ | _ | s)
    · exact .inl ⟨rfl, rfl⟩
    · exact .inr ⟨s, rfl, rfl⟩
  · rintro (⟨rfl, rfl⟩ | ⟨s, rfl, rfl⟩)
    · exact .null
    · exact .string s

theorem tellsTruth_none_iff (b : Bool) : TellsTruth none b ↔ b = true := by
  constructor
  · rintro ⟨⟩
    rfl
  · rintro rfl
    exact .absent

theorem tellsSeconds_none_iff (n : UInt64) : TellsSeconds none n ↔ n = defaultTimeout := by
  constructor
  · rintro ⟨⟩
    rfl
  · rintro rfl
    exact .absent

/-- Members tell a configuration exactly if they may be those of one. -/
theorem exists_tells_iff {ms : List (String × Json)} : (∃ c, Tells ms c) ↔ AreAcceptable ms := by
  constructor
  · rintro ⟨c, url, key, verify, certificate, timeout⟩
    exact ⟨⟨_, url⟩, exists_tellsText_iff.mp ⟨_, key⟩, exists_tellsTruth_iff.mp ⟨_, verify⟩,
      exists_tellsText_iff.mp ⟨_, certificate⟩, exists_tellsSeconds_iff.mp ⟨_, timeout⟩⟩
  · rintro ⟨⟨url, found⟩, key, verify, certificate, timeout⟩
    obtain ⟨key, tellsKey⟩ := exists_tellsText_iff.mpr key
    obtain ⟨verify, tellsVerify⟩ := exists_tellsTruth_iff.mpr verify
    obtain ⟨certificate, tellsCertificate⟩ := exists_tellsText_iff.mpr certificate
    obtain ⟨timeout, tellsTimeout⟩ := exists_tellsSeconds_iff.mpr timeout
    exact ⟨⟨url, key, verify, certificate, timeout⟩, found, tellsKey, tellsVerify,
      tellsCertificate, tellsTimeout⟩

end Found

namespace Draft

variable {e : Draft} {f : Field} {o : Option Json}

/-- A draft shows what is found of a member if it holds something exactly if something is found, and
then what is read of that. -/
theorem shows_iff {α : Type} {read : Shape → Except Mismatch α} {set : α → Draft}
    (puts : ∀ v, empty.put f v = (read v).map set) :
    e.Shows f o ↔ o = none ∧ e.held f = empty.held f ∨
      ∃ v a, o = some v ∧ read v.shape = .ok a ∧ e.held f = (set a).held f := by
  cases o with
  | none =>
      constructor
      · exact fun same => .inl ⟨rfl, same⟩
      · rintro (⟨-, same⟩ | ⟨_, _, impossible, _⟩)
        · exact same
        · cases impossible
  | some v =>
      rw [Shows, puts]
      constructor
      · rintro ⟨d, fits, held⟩
        obtain ⟨a, told, rfl⟩ := map_eq_ok.mp fits
        exact .inr ⟨v, a, rfl, told, held⟩
      · rintro (⟨impossible, -⟩ | ⟨_, a, ⟨⟩, told, held⟩)
        · cases impossible
        · exact ⟨_, map_eq_ok.mpr ⟨a, told, rfl⟩, held⟩

/-- What is held is what is told, or the usual if nothing is held. -/
theorem held_iff {α : Type} {read : Shape → Except Mismatch α} {tells : Option Json → α → Prop}
    {usual : α} (absent : ∀ a, tells none a ↔ a = usual)
    (told : ∀ v a, tells (some v) a ↔ read v.shape = .ok a) {h : Option α} :
    (o = none ∧ h = none ∨ ∃ v a, o = some v ∧ read v.shape = .ok a ∧ h = some a) ↔
      h.isSome = o.isSome ∧ tells o (h.getD usual) := by
  cases o with
  | none => cases h <;> simp [absent]
  | some v => cases h <;> simp [told]

/-- What is told may be held for whatever is found. -/
theorem exists_held {α : Type} {tells : Option Json → α → Prop} {usual a : α}
    (absent : ∀ a, tells none a ↔ a = usual) (told : tells o a) :
    ∃ h : Option α, h.isSome = o.isSome ∧ h.getD usual = a := by
  cases o with
  | none => exact ⟨none, rfl, ((absent a).mp told).symm⟩
  | some v => exact ⟨some a, rfl, rfl⟩

theorem shows_url : e.Shows .url o ↔
    o = none ∧ e.url = none ∨ ∃ s, o = some (.string s) ∧ e.url = some s := by
  refine (shows_iff fun _ => rfl).trans (or_congr Iff.rfl ?_)
  simp only [text_shape_eq_ok_iff]
  constructor
  · rintro ⟨_, s, there, rfl, held⟩
    exact ⟨s, there, held⟩
  · rintro ⟨s, there, held⟩
    exact ⟨_, s, there, rfl, held⟩

theorem shows_apiKey : e.Shows .apiKey o ↔
    e.apiKey.isSome = o.isSome ∧ TellsText o (e.apiKey.getD none) :=
  (shows_iff fun _ => rfl).trans (held_iff tellsText_none_iff fun _ => tellsText_some_iff)

theorem shows_caCertificate : e.Shows .caCertificate o ↔
    e.caCertificate.isSome = o.isSome ∧ TellsText o (e.caCertificate.getD none) :=
  (shows_iff fun _ => rfl).trans (held_iff tellsText_none_iff fun _ => tellsText_some_iff)

theorem shows_verifyTls : e.Shows .verifyTls o ↔
    e.verifyTls.isSome = o.isSome ∧ TellsTruth o (e.verifyTls.getD true) := by
  refine (shows_iff fun _ => rfl).trans (held_iff tellsTruth_none_iff fun v b => ?_)
  rw [truth_shape_eq_ok_iff]
  constructor
  · rintro ⟨⟩
    rfl
  · rintro rfl
    exact .bool b

theorem shows_timeout : e.Shows .timeout o ↔
    e.timeout.isSome = o.isSome ∧ TellsSeconds o (e.timeout.getD defaultTimeout) := by
  refine (shows_iff fun _ => rfl).trans (held_iff tellsSeconds_none_iff fun v n => ?_)
  rw [word_shape_eq_ok_iff]
  constructor
  · rintro ⟨⟩
    rfl
  · rintro rfl
    exact .integer n

end Draft

/-- An object is read as what its members tell. -/
theorem ofJson_object_eq_ok_iff_tells {ms : List (String × Json)} (order : Ascending ms)
    {c : Config} : ofJson (.object ms) = .ok c ↔ Tells ms c := by
  rw [ofJson_object_eq_ok_iff]
  simp only [fills_known_iff order]
  constructor
  · rintro ⟨e, shows, finished⟩
    rw [Draft.finish] at finished
    rcases Draft.shows_url.mp (shows .url) with ⟨-, none⟩ | ⟨s, found, some⟩
    · rw [none] at finished
      cases finished
    · rw [some] at finished
      cases finished
      exact ⟨found, (Draft.shows_apiKey.mp (shows .apiKey)).2,
        (Draft.shows_verifyTls.mp (shows .verifyTls)).2,
        (Draft.shows_caCertificate.mp (shows .caCertificate)).2,
        (Draft.shows_timeout.mp (shows .timeout)).2⟩
  · rintro ⟨url, key, verify, certificate, timeout⟩
    obtain ⟨heldKey, hasKey, sameKey⟩ := Draft.exists_held tellsText_none_iff key
    obtain ⟨heldVerify, hasVerify, sameVerify⟩ :=
      Draft.exists_held tellsTruth_none_iff verify
    obtain ⟨heldCertificate, hasCertificate, sameCertificate⟩ :=
      Draft.exists_held tellsText_none_iff certificate
    obtain ⟨heldTimeout, hasTimeout, sameTimeout⟩ :=
      Draft.exists_held tellsSeconds_none_iff timeout
    refine ⟨⟨some c.url, heldKey, heldVerify, heldCertificate, heldTimeout⟩, fun f => ?_, ?_⟩
    · cases f with
      | url => exact Draft.shows_url.mpr (.inr ⟨c.url, url, rfl⟩)
      | apiKey => exact Draft.shows_apiKey.mpr ⟨hasKey, sameKey ▸ key⟩
      | verifyTls => exact Draft.shows_verifyTls.mpr ⟨hasVerify, sameVerify ▸ verify⟩
      | caCertificate =>
          exact Draft.shows_caCertificate.mpr ⟨hasCertificate, sameCertificate ▸ certificate⟩
      | timeout => exact Draft.shows_timeout.mpr ⟨hasTimeout, sameTimeout ▸ timeout⟩
    · simp only [Draft.finish, sameKey, sameVerify, sameCertificate, sameTimeout]

end RegionApi.Config
