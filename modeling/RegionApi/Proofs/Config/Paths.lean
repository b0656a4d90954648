import RegionApi.Config.OfText
import RegionApi.Proofs.Config.Members
import RegionApi.Proofs.Json.Printing
import RegionApi.Proofs.Json.Skipping

/-!
# Configurations are read alike from texts and from values

A text is read without making a value of it, but to the same end. What is read from the text of a
value is like what is read from the value itself (`Mirrors`), however the text is laid out
(`mirrors_ofText`): this holds of a single member, and so of objects and arrays, step by step. For
objects this comes to the rules for their members (`read_alike`).
-/

namespace RegionApi.Config

open Json (IsMember Spaced Listed Further AreSpaces Ends Spells Shape)
open Text (ascii utf8Chars)

variable {depth : Nat} {d : Draft} {s spaces rest : Bytes}

/-! ## Values -/

/-- Nothing with brackets fits. -/
theorem exists_put_eq_error (d : Draft) (f : Field) :
    (∃ m, d.put f .sequence = .error m) ∧ ∃ m, d.put f .map = .error m := by
  cases f <;> exact ⟨⟨_, rfl⟩, ⟨_, rfl⟩⟩

/-- The shape of a value is what it is at first sight. -/
theorem exists_head_eq {v : Json} (value : Spaced (Spells depth) s v) (ends : Ends rest) :
    ∃ left, Json.head (s ++ rest) = .ok (v.shape, left) ∧
      (left = rest ∨ v.shape = .sequence ∨ v.shape = .map) := by
  obtain ⟨are, spelled⟩ := value
  rw [List.append_assoc, Json.head_append are]
  cases depth with
  | zero => exact ⟨rest, Json.head_scalar spelled ends, .inl rfl⟩
  | succ depth =>
      rcases spelled with scalar | bracketed
      · exact ⟨rest, Json.head_scalar scalar ends, .inl rfl⟩
      · cases bracketed with
        | array => exact ⟨_, Json.head_array _, .inr (.inl rfl)⟩
        | object => exact ⟨_, Json.head_object _, .inr (.inr rfl)⟩

theorem mirrors_readValue (f : Field) {v : Json} (value : Spaced (Spells depth) s v)
    (ends : Ends rest) :
    Mirrors (fun e r => r = (e, rest)) (d.put f v.shape) (readValue d f (s ++ rest)) := by
  obtain ⟨left, seen, which⟩ := exists_head_eq value ends
  rw [readValue, seen, ok_bind]
  obtain ⟨⟨m, list⟩, ⟨n, members⟩⟩ := exists_put_eq_error d f
  rcases which with rfl | shape | shape
  · dsimp only
    cases d.put f v.shape with
    | ok e => exact .ok rfl
    | error m => exact .error _ _
  · simp only [shape, list]
    exact .error _ _
  · simp only [shape, members]
    exact .error _ _

/-! ## Members -/

theorem readMembers_cons (d : Draft) (m : String × Json) (ms : List (String × Json)) :
    readMembers d (m :: ms) = readMembers d [m] >>= fun e => readMembers e ms := by
  obtain ⟨name, v⟩ := m
  simp only [readMembers]
  cases Field.ofName? name with
  | none => rfl
  | some f =>
      dsimp only
      split
      · rfl
      · cases d.put f v.shape <;> rfl

/-- A member that comes next is read from the text as it is at hand. -/
theorem mirrors_readMember (sofar : Option Draft) {m : String × Json} {behind : Bytes}
    (isMember : IsMember (Spells depth) (ascii '\x22' :: behind) m) (ends : Ends rest)
    (more : Json.nextName sofar.isNone s = .ok (true, behind ++ rest)) :
    Mirrors (fun e r => r = (.inl (some e), rest)) (readMembers (sofar.getD .empty) [m])
      (readMember sofar s) := by
  obtain ⟨left, t, named, separated, value⟩ := isMember.exists_read rest
  obtain ⟨name, v⟩ := m
  rw [readMember, more, ok_bind]
  simp only [named, ok_bind, readMembers, separated]
  cases Field.ofName? name with
  | none =>
      simp only [Json.skip_append value ends]
      exact .ok rfl
  | some f =>
      dsimp only
      split
      · exact .error _ _
      · refine (mirrors_readValue f value ends).bind ?_
        rintro e _ rfl
        exact .ok rfl

theorem mirrors_readMember_first {m : String × Json} (first : Spaced (IsMember (Spells depth)) s m)
    (ends : Ends rest) :
    Mirrors (fun e r => r = (.inl (some e), rest)) (readMembers .empty [m])
      (readMember none (s ++ rest)) := by
  obtain ⟨are, isMember⟩ := first
  obtain ⟨letters, gap, t, rfl, -⟩ := Json.isMember_iff.mp isMember
  rw [List.append_assoc]
  exact mirrors_readMember none isMember ends (Json.nextName_first are)

theorem mirrors_readMember_further {m : String × Json} {before : Bytes} (are : AreSpaces before)
    (next : Spaced (IsMember (Spells depth)) s m) (ends : Ends rest) :
    Mirrors (fun e r => r = (.inl (some e), rest)) (readMembers d [m])
      (readMember (some d) (before ++ ascii ',' :: (s ++ rest))) := by
  obtain ⟨between, isMember⟩ := next
  obtain ⟨letters, gap, t, rfl, -⟩ := Json.isMember_iff.mp isMember
  rw [List.append_assoc]
  exact mirrors_readMember (some d) isMember ends (Json.nextName_further are between)

theorem readMember_close (sofar : Option Draft) (are : AreSpaces spaces) :
    readMember sofar (spaces ++ ascii '\x7d' :: rest) = .ok (.inr sofar, ascii '\x7d' :: rest) := by
  rw [readMember, Json.nextName_close _ are, ok_bind]
  rfl

/-! ## Objects -/

/-- A loop that begins with a step like another one is like it if it goes on so. -/
theorem mirrors_repeatedAtMost_succ {σ α β : Type} {step : σ → Json.Reader (σ ⊕ σ)}
    {x : Except Json.Mismatch α} {f : α → Except Json.Mismatch β} {made : α → σ}
    {onward : β → σ × Bytes → Prop} {n : Nat} {state : σ}
    (h : Mirrors (fun a r => r = (.inl (made a), rest)) x (step state s))
    (each : ∀ a, Mirrors onward (f a) (Json.repeatedAtMost step n (made a) rest)) :
    Mirrors onward (x >>= f) (Json.repeatedAtMost step (n + 1) state s) := by
  rw [Json.repeatedAtMost]
  generalize step state s = reached at h ⊢
  cases h with
  | ok same =>
      rw [same]
      exact each _
  | error e e' => exact .error e e'

/-- Members behind the first are read as they are at hand, up to the closing bracket, which is left
standing. -/
theorem mirrors_readMembers_of_further {ms : List (String × Json)} {n : Nat}
    (further : Further (Spaced (IsMember (Spells depth))) s ms) (are : AreSpaces spaces)
    (enough : s.length < n) (rest : Bytes) :
    Mirrors (fun e r => r = (some e, ascii '\x7d' :: rest)) (readMembers d ms)
      (Json.repeatedAtMost readMember n (some d) (s ++ (spaces ++ ascii '\x7d' :: rest))) := by
  induction further generalizing d n with
  | nil =>
      obtain ⟨n, rfl⟩ := Nat.exists_eq_succ_of_ne_zero (Nat.ne_of_gt enough)
      rw [List.nil_append, Json.repeatedAtMost, readMember_close (some d) are]
      exact .ok rfl
  | @cons before s t m ms areBefore next others ih =>
      have ends := others.ends are (by decide : Json.isClosing (ascii '\x7d') = true) rest
      simp only [List.length_append, List.length_cons] at enough
      obtain ⟨n, rfl⟩ := Nat.exists_eq_succ_of_ne_zero (by omega : n ≠ 0)
      rw [Json.append_further, readMembers_cons]
      exact mirrors_repeatedAtMost_succ (mirrors_readMember_further areBefore next ends)
        fun e => ih (by omega)

/-- What has been read is a configuration or not, wherever it comes from. -/
theorem mirrors_finish (d : Draft) :
    Mirrors (fun c r => r = (c, rest)) d.finish
      (match d.finish with
        | .ok c => return (c, rest)
        | .error m => .error (refuse m rest)) := by
  cases d.finish with
  | ok c => exact .ok rfl
  | error m => exact .error _ _

theorem behind_closing {b : UInt8} (space : Json.isSpace b = false) (s : Bytes) :
    behind b (b :: s) = s := by
  rw [behind, Json.skipSpaces_cons space]
  simp

/-- An object is read as it is at hand. -/
theorem mirrors_readObject {ms : List (String × Json)}
    (listed : Listed (Spaced (IsMember (Spells depth))) s ms) (are : AreSpaces spaces)
    (rest : Bytes) :
    Mirrors (fun c r => r = (c, rest)) (ofJson (.object ms))
      (readObject (s ++ (spaces ++ ascii '\x7d' :: rest))) := by
  have gathered : Mirrors (fun e r => r.1.getD .empty = e ∧ r.2 = ascii '\x7d' :: rest)
      (readMembers .empty ms)
      (Json.repeated readMember none (s ++ (spaces ++ ascii '\x7d' :: rest))) := by
    cases listed with
    | nil =>
        rw [List.nil_append, Json.repeated_of_stop (readMember_close none are)]
        exact .ok ⟨rfl, rfl⟩
    | @cons s t m ms first others =>
        have ends := others.ends are (by decide : Json.isClosing (ascii '\x7d') = true) rest
        rw [readMembers_cons, Json.repeated, List.append_assoc]
        refine mirrors_repeatedAtMost_succ (mirrors_readMember_first first ends) fun e => ?_
        have onward := mirrors_readMembers_of_further (d := e) others are
          (n := (s ++ (t ++ (spaces ++ ascii '\x7d' :: rest))).length)
          (by simp only [List.length_append, List.length_cons]; omega) rest
        refine onward.mono ?_
        rintro _ _ rfl
        exact ⟨rfl, rfl⟩
  refine gathered.bind ?_
  rintro _ ⟨d, _⟩ ⟨rfl, rfl⟩
  simp only [behind_closing (by decide : Json.isSpace (ascii '\x7d') = false)]
  exact mirrors_finish _

/-! ## Arrays -/

/-- Whether some bytes are what is left of a list, from behind a value of it: further values, which
are left over, and a closing bracket. -/
def IsLeft (depth : Nat) (rest left : Bytes) (surplus : List Json) : Prop :=
  ∃ s spaces, left = s ++ (spaces ++ ascii ']' :: rest) ∧ AreSpaces spaces ∧
    Further (Spaced (Spells depth)) s surplus

/-- Where a list has no more values the members left have to do without. -/
theorem mirrors_readList_close (first : Bool) (d : Draft) (fs : List Field)
    (are : AreSpaces spaces) (rest : Bytes) :
    Mirrors (fun e r => r.1 = e.1 ∧ IsLeft depth rest r.2 e.2) (readItems d fs [])
      (readList first d fs (spaces ++ ascii ']' :: rest)) := by
  induction fs generalizing spaces with
  | nil => exact .ok ⟨rfl, [], spaces, rfl, are, .nil⟩
  | cons f fs ih =>
      rw [readItems, readList, Json.nextItem_close first are, ok_bind]
      cases Draft.absent f with
      | none => exact ih Json.areSpaces_nil
      | some m => exact .error _ _

/-- Where a value comes next it is read for the member whose turn it is. -/
theorem mirrors_readList_cons {first : Bool} {f : Field} {fs : List Field} {v : Json}
    {vs : List Json} {t : Bytes} {together : Draft × List Json → Draft × Bytes → Prop}
    (value : Spells depth t v) (ends : Ends rest)
    (more : Json.nextItem first s = .ok (true, t ++ rest))
    (onward : ∀ e, Mirrors together (readItems e fs vs) (readList false e fs rest)) :
    Mirrors together (readItems d (f :: fs) (v :: vs)) (readList first d (f :: fs) s) := by
  rw [readList, more, ok_bind]
  refine (mirrors_readValue f (Json.spaced_of_part value) ends).bind ?_
  rintro e _ rfl
  exact onward e

/-- Values behind the first are read as they are at hand. -/
theorem mirrors_readList_of_further {vs : List Json} {fs : List Field}
    (further : Further (Spaced (Spells depth)) s vs) (are : AreSpaces spaces) (rest : Bytes) :
    Mirrors (fun e r => r.1 = e.1 ∧ IsLeft depth rest r.2 e.2) (readItems d fs vs)
      (readList false d fs (s ++ (spaces ++ ascii ']' :: rest))) := by
  induction fs generalizing d s vs with
  | nil => exact .ok ⟨rfl, s, spaces, rfl, are, further⟩
  | cons f fs ih =>
      cases further with
      | nil => exact mirrors_readList_close false d (f :: fs) are rest
      | @cons before _ t v vs areBefore next others =>
          obtain ⟨between, value⟩ := next
          have ends := others.ends are (by decide : Json.isClosing (ascii ']') = true) rest
          refine mirrors_readList_cons value ends ?_ fun e => ih others
          obtain ⟨b, u, rfl, opening⟩ := (Json.reads_value depth).opening value
          have more := Json.nextItem_further (s := u ++ (t ++ (spaces ++ ascii ']' :: rest)))
            areBefore between opening
          simpa using more

/-- Values are read as they are at hand. -/
theorem mirrors_readList_of_listed {vs : List Json}
    (listed : Listed (Spaced (Spells depth)) s vs) (are : AreSpaces spaces) (rest : Bytes) :
    Mirrors (fun e r => r.1 = e.1 ∧ IsLeft depth rest r.2 e.2) (readItems .empty Field.all vs)
      (readList true .empty Field.all (s ++ (spaces ++ ascii ']' :: rest))) := by
  cases listed with
  | nil => exact mirrors_readList_close true .empty Field.all are rest
  | @cons _ t v vs next others =>
      obtain ⟨between, value⟩ := next
      have ends := others.ends are (by decide : Json.isClosing (ascii ']') = true) rest
      refine mirrors_readList_cons value ends ?_
        fun e => mirrors_readList_of_further others are rest
      obtain ⟨b, u, rfl, opening⟩ := (Json.reads_value depth).opening value
      have more := Json.nextItem_first (s := u ++ (t ++ (spaces ++ ascii ']' :: rest)))
        between opening
      simpa using more

/-- A list has to end behind the last value that is read of it. -/
theorem mirrors_endList {left : Bytes} {surplus : List Json}
    (isLeft : IsLeft depth rest left surplus) (c : Config) (m : Json.Mismatch) :
    Mirrors (fun c r => r = (c, rest)) (if surplus = [] then .ok c else .error m)
      (do return (c, ← endList left)) := by
  obtain ⟨s, spaces, rfl, are, further⟩ := isLeft
  cases further with
  | nil =>
      rw [List.nil_append, endList, Json.skipSpaces_token are (by decide)]
      exact .ok rfl
  | cons areBefore next others =>
      rw [List.append_assoc, endList, List.cons_append, Json.skipSpaces_token areBefore (by decide)]
      exact .error _ _

/-- An array is read as it is at hand. -/
theorem mirrors_readArray {vs : List Json} (listed : Listed (Spaced (Spells depth)) s vs)
    (are : AreSpaces spaces) (rest : Bytes) :
    Mirrors (fun c r => r = (c, rest)) (ofJson (.array vs))
      (readArray (s ++ (spaces ++ ascii ']' :: rest))) := by
  refine (mirrors_readList_of_listed listed are rest).bind ?_
  rintro ⟨_, surplus⟩ ⟨d, left⟩ ⟨rfl, isLeft⟩
  dsimp only
  cases d.finish with
  | error m => exact .error _ _
  | ok c => exact mirrors_endList isLeft c _

/-! ## Texts -/

/-- Whether some bytes are a value as it stands: an object has all the members that are listed, in
this order and with every name as often as it is there. -/
inductive LaysOut : Bytes → Json → Prop
  | scalar {s : Bytes} {v : Json} (spelled : Json.IsScalar s v) : LaysOut s v
  | array {depth : Nat} {s spaces : Bytes} {items : List Json}
      (listed : Listed (Spaced (Spells depth)) s items) (are : AreSpaces spaces) :
      LaysOut (ascii '[' :: (s ++ (spaces ++ [ascii ']']))) (.array items)
  | object {depth : Nat} {s spaces : Bytes} {members : List (String × Json)}
      (listed : Listed (Spaced (IsMember (Spells depth))) s members) (are : AreSpaces spaces) :
      LaysOut (ascii '\x7b' :: (s ++ (spaces ++ [ascii '\x7d']))) (.object members)

/-- Whether a text is a value as it stands, spaces apart. -/
def IsTextOf (text : String) (v : Json) : Prop :=
  ∃ s after, Text.utf8 text = s ++ after ∧ Spaced LaysOut s v ∧ AreSpaces after

theorem mirrors_read {v : Json} (value : Spaced LaysOut s v) (ends : Ends rest) :
    Mirrors (fun c r => r = (c, rest)) (ofJson v) (read (s ++ rest)) := by
  obtain ⟨are, laid⟩ := value
  rw [List.append_assoc, read, Json.head_append are]
  cases laid with
  | scalar spelled =>
      rw [Json.head_scalar spelled ends, ok_bind]
      cases spelled <;> exact .error _ _
  | @array depth s gap items listed areGap =>
      rw [Json.append_bracketed, Json.head_array, ok_bind]
      exact mirrors_readArray listed areGap rest
  | @object depth s gap members listed areGap =>
      rw [Json.append_bracketed, Json.head_object, ok_bind]
      exact mirrors_readObject listed areGap rest

/-- A value is read from its text as it is at hand, however the text is laid out. -/
theorem mirrors_ofText {text : String} {v : Json} (isText : IsTextOf text v) :
    Mirrors Eq (ofJson v) (ofText text) := by
  obtain ⟨s, after, letters, value, are⟩ := isText
  have parsed : Mirrors Eq (ofJson v) (parse (Text.utf8 text)) := by
    rw [letters, parse, ← bind_pure (ofJson v)]
    refine (mirrors_read value (Json.ends_of_areSpaces are)).bind ?_
    rintro c _ rfl
    simp only [Json.atEnd_eq_ok_iff.mpr are, ok_bind]
    exact .ok rfl
  rw [ofText]
  generalize ofJson v = value, parse (Text.utf8 text) = result at parsed ⊢
  cases parsed with
  | ok same => exact .ok same
  | error e e' => exact .error _ _

theorem isTextOf_of_laysOut {v : Json} (laid : LaysOut (utf8Chars v.chars) v) :
    IsTextOf v.text v := by
  refine ⟨utf8Chars v.chars, [], ?_, Json.spaced_of_part laid, Json.areSpaces_nil⟩
  rw [Text.utf8, Json.text, String.toList_ofList, List.append_nil]

/-- An object is laid out by its compact text, in whichever order its members stand. -/
theorem laysOut_object {ms : List (String × Json)}
    (each : ∀ m ∈ ms, Spells depth (utf8Chars m.2.chars) m.2) :
    LaysOut (utf8Chars (Json.object ms).chars) (.object ms) := by
  obtain ⟨s, text, listed⟩ := Json.exists_listed_object each
  rw [text]
  exact .object listed Json.areSpaces_nil

/-- A compact text is one of its value. -/
theorem isTextOf_text {v : Json} (exact : v.IsExact) (canonical : v.IsCanonical) :
    IsTextOf v.text v := by
  refine isTextOf_of_laysOut ?_
  cases exact with
  | null => exact .scalar .null
  | bool b => exact .scalar (Json.isScalar_bool b)
  | integer i => exact .scalar (Json.isScalar_integer i)
  | string s => exact .scalar (.string (Json.isString_stringChars s))
  | @array items each =>
      cases canonical with
      | array canonical =>
          obtain ⟨s, text, listed⟩ := Json.exists_listed_array fun v hv =>
            Json.spells_chars (each v hv) (canonical v hv) (Json.depth_le_depthOfItems hv)
          rw [text]
          exact .array listed Json.areSpaces_nil
  | @object members each =>
      cases canonical with
      | object _ canonical =>
          exact laysOut_object fun m hm =>
            Json.spells_chars (each m hm) (canonical m hm) (Json.depth_le_depthOfMembers hm)

/-- From the compact text of a value without fractions, and from any text that lays a value out, a
configuration is read as from the value at hand. An object is read exactly if its members are
acceptable, and then as what they tell; texts of objects with the same members of a configuration
are read alike, however these are ordered and whatever stands among them. -/
theorem read_alike :
    (∀ v : Json, v.IsExact → v.IsCanonical → (ofText v.text).toOption = (ofJson v).toOption) ∧
      (∀ text v, IsTextOf text v → (ofText text).toOption = (ofJson v).toOption) ∧
      (∀ ms, Json.Ascending ms →
        ((∃ c, ofJson (.object ms) = .ok c) ↔ AreAcceptable ms) ∧
          ∀ c, ofJson (.object ms) = .ok c ↔ Tells ms c) ∧
      ∀ text other ms ns, IsTextOf text (.object ms) → IsTextOf other (.object ns) →
        (known ms).Perm (known ns) → (ofText text).toOption = (ofText other).toOption := by
  refine ⟨fun v exact canonical => ?_, fun text v isText => ?_, fun ms order => ⟨?_, fun c => ?_⟩,
    fun text other ms ns isText isOther same => ?_⟩
  · exact (mirrors_ofText (isTextOf_text exact canonical)).toOption_eq.symm
  · exact (mirrors_ofText isText).toOption_eq.symm
  · simp only [ofJson_object_eq_ok_iff_tells order]
    exact exists_tells_iff
  · exact ofJson_object_eq_ok_iff_tells order
  · have alike : (ofJson (.object ms)).toOption = (ofJson (.object ns)).toOption := by
      refine Option.ext fun c => ?_
      rw [toOption_eq_some_iff, toOption_eq_some_iff]
      exact ofJson_object_eq_ok_iff_of_perm same
    rw [← (mirrors_ofText isText).toOption_eq, alike, (mirrors_ofText isOther).toOption_eq]

/-- Spaces, another order and one member more make no difference. -/
theorem read_alike_spaced :
    let ms : List (String × Json) := [("tls_verify", .bool false), ("url", .string "u")]
    let ns : List (String × Json) :=
      [("url", .string "u"), ("x", .null), ("tls_verify", .bool false)]
    let text := "\x7b \"url\" : \"u\" , \"x\":null,\"tls_verify\":false\x7d"
    ((Json.object ms).IsExact ∧ (Json.object ms).IsCanonical ∧
        (ofText (Json.object ms).text).toOption = (ofJson (.object ms)).toOption) ∧
      (IsTextOf text (.object ns) ∧ (ofText text).toOption = (ofJson (.object ns)).toOption) ∧
      (Json.Ascending ms ∧ ((∃ c, ofJson (.object ms) = .ok c) ↔ AreAcceptable ms)) ∧
      IsTextOf (Json.object ms).text (.object ms) ∧ (known ns).Perm (known ms) ∧
        (ofText text).toOption = (ofText (Json.object ms).text).toOption := by
  intro ms ns text
  have order : Json.Ascending ms :=
    List.pairwise_pair.mpr (String.lt_iff_toList_lt.mpr (by decide))
  have exact : (Json.object ms).IsExact := by
    refine .object fun m hm => ?_
    simp only [ms, List.mem_cons, List.not_mem_nil, or_false] at hm
    rcases hm with rfl | rfl
    · exact .bool false
    · exact .string "u"
  have canonical : (Json.object ms).IsCanonical := by
    refine .object order fun m hm => ?_
    simp only [ms, List.mem_cons, List.not_mem_nil, or_false] at hm
    rcases hm with rfl | rfl
    · exact .bool false
    · exact .string "u"
  have same : (known ns).Perm (known ms) := by
    have seen : known ns = [(.url, .string "u"), (.verifyTls, .bool false)] := rfl
    have found : known ms = [(.verifyTls, .bool false), (.url, .string "u")] := rfl
    rw [seen, found]
    exact .swap _ _ _
  have isText : IsTextOf text (.object ns) := by
    have space : AreSpaces [ascii ' '] := List.forall_mem_singleton.mpr (by decide)
    have tight := Json.areSpaces_nil
    have member (name : String) {v : Json} {s gap : Bytes} (are : AreSpaces gap)
        (scalar : Spaced (Spells 0) s v) :
        IsMember (Spells 0) (utf8Chars (Json.stringChars name) ++ (gap ++ ascii ':' :: s))
          (name, v) :=
      .mk (Json.isString_stringChars name) are scalar
    refine ⟨_, [], ?_, .mk tight (.object (.cons
      (.mk space (member "url" space (.mk space (.string (Json.isString_stringChars "u")))))
      (.cons space (.mk space (member "x" tight (.mk tight .null)))
        (.cons tight (.mk tight (member "tls_verify" tight (.mk tight .no))) .nil))) tight), tight⟩
    decide
  have isOther := isTextOf_text exact canonical
  exact ⟨⟨exact, canonical, read_alike.1 _ exact canonical⟩, ⟨isText, read_alike.2.1 _ _ isText⟩,
    ⟨order, (read_alike.2.2.1 ms order).1⟩, isOther, same,
    read_alike.2.2.2 text _ ns ms isText isOther same⟩

end RegionApi.Config
