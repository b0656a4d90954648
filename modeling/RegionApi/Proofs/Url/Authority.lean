import Mathlib.Data.List.TakeWhile
import RegionApi.Proofs.Except
import RegionApi.Proofs.Url.Host
import RegionApi.Url.Reference

/-!
# Authorities of the web are read back

Reading brings an authority in its normal spelling (`isNormal_of_readAuthority`), and one in its
normal spelling is read back from its text, whatever path follows it (`IsNormal.readAuthority_bare`).
User information is found again because nothing behind it holds an at sign, and the port because a
host holds a colon between brackets only.
-/

namespace RegionApi.Url

/-! ## Parts behind a mark -/

/-- A part behind a mark is found again if nothing before it holds the mark. -/
theorem cut_append_marked {mark : Char} {cs : List Char} (h : mark ∉ cs) (part : Option String) :
    Reference.cut mark (cs ++ marked mark part) = (cs, part.map String.toList) := by
  have before : ∀ c ∈ cs, decide (c ≠ mark) = true := by
    intro c hc
    refine decide_eq_true ?_
    rintro rfl
    exact h hc
  unfold Reference.cut
  cases part with
  | none =>
      have nothing : cs.dropWhile (· ≠ mark) = [] := List.dropWhile_eq_nil_iff.mpr before
      simp only [marked, List.append_nil, nothing]
      rfl
  | some s =>
      rw [marked, List.dropWhile_append_of_pos before, List.takeWhile_append_of_pos before]
      simp

namespace Authority

/-- Whether an authority is in the spelling that reading brings. -/
structure IsNormal [HostNames] (scheme : String) (a : Authority) : Prop where
  username : Escape.IsKept Escape.userInfo a.username
  password : ∀ p, a.password = some p → p ≠ "" ∧ Escape.IsKept Escape.userInfo p
  host : a.host.IsNormal
  port : ∀ p, a.port = some p → defaultPort? scheme ≠ some p

/-- An authority without its two slashes. -/
def bare (a : Authority) : List Char := a.userInfoText ++ (a.host.text ++ portText a.port)

theorem text_eq (a : Authority) : a.text = '/' :: '/' :: a.bare := by
  simp [text, bare]

/-- User name and password without the at sign. -/
def userInfo (a : Authority) : List Char := a.username.toList ++ marked ':' a.password

/-- There is an at sign exactly if there is a user name or a password. -/
theorem userInfoText_eq (a : Authority) :
    a.userInfoText =
      if a.username = "" ∧ a.password = none then [] else a.userInfo ++ ['@'] := by
  unfold userInfoText userInfo
  cases a.password with
  | none => by_cases unnamed : a.username = "" <;> simp [unnamed, marked]
  | some p => simp [marked]

/-! ## Characters of authorities -/

/-- The characters at which an authority ends. -/
def enders : List Char := ['/', '\\', '?', '#']

/-- Whether a character can stand in the middle of an authority. -/
def IsInner (c : Char) : Prop := Escape.isPlain c = true ∧ c ∉ enders

theorem isInner_of_isKept {s : String} (h : Escape.IsKept Escape.userInfo s) {c : Char}
    (hc : c ∈ s.toList) : IsInner c := by
  refine ⟨Escape.isPlain_of_userInfo (h c hc), fun mem => ?_⟩
  have ends : enders.all (fun d => !Escape.userInfo d) = true := by decide
  exact h.notMem (by simpa using List.all_eq_true.mp ends c mem) hc

theorem isInner_of_mem_portText {port : Option UInt16} {c : Char} (hc : c ∈ portText port) :
    IsInner c := by
  cases port with
  | none => cases hc
  | some p =>
      rcases List.mem_cons.mp hc with rfl | hc
      · exact ⟨by decide, by decide⟩
      · obtain ⟨d, small, rfl⟩ := Text.exists_of_mem_toDigits (by decide) hc
        have digits : ∀ d < 10, Escape.isPlain d.digitChar = true ∧ d.digitChar ∉ enders := by
          decide
        exact digits d small

theorem at_notMem_portText (port : Option UInt16) : '@' ∉ portText port := by
  cases port with
  | none => exact List.not_mem_nil
  | some p =>
      refine List.not_mem_cons_of_ne_of_not_mem (by decide) fun h => ?_
      exact absurd (Text.isDigit_of_mem_decimal h) (by decide)

section Normal

variable [HostNames] {scheme : String} {a : Authority}

theorem IsNormal.isInner_of_mem_userInfo (h : a.IsNormal scheme) {c : Char}
    (hc : c ∈ a.userInfo) : IsInner c := by
  rcases List.mem_append.mp hc with hc | hc
  · exact isInner_of_isKept h.username hc
  · cases password : a.password with
    | none =>
        rw [password] at hc
        cases hc
    | some p =>
        rw [password] at hc
        rcases List.mem_cons.mp hc with rfl | hc
        · exact ⟨by decide, by decide⟩
        · exact isInner_of_isKept (h.password p password).2 hc

theorem IsNormal.isInner_of_mem_host (h : a.IsNormal scheme) {c : Char} (hc : c ∈ a.host.text) :
    IsInner c := by
  refine ⟨h.host.isPlain_of_mem_text hc, fun mem => ?_⟩
  have ends : enders.all (fun d => Host.forbidden d && !(List.contains ['[', ':', ']'] d)) = true :=
    by decide
  obtain ⟨forbidden, other⟩ := Bool.and_eq_true_iff.mp (List.all_eq_true.mp ends c mem)
  exact h.host.notMem_text forbidden (by simpa using other) hc

/-- Nothing in an authority ends it. -/
theorem IsNormal.isInner_of_mem_bare (h : a.IsNormal scheme) {c : Char} (hc : c ∈ a.bare) :
    IsInner c := by
  rcases List.mem_append.mp hc with hc | hc
  · rw [userInfoText_eq] at hc
    split at hc
    · cases hc
    · rcases List.mem_append.mp hc with hc | hc
      · exact h.isInner_of_mem_userInfo hc
      · rw [List.mem_singleton.mp hc]
        exact ⟨by decide, by decide⟩
  · rcases List.mem_append.mp hc with hc | hc
    · exact h.isInner_of_mem_host hc
    · exact isInner_of_mem_portText hc

theorem IsNormal.bare_ne_nil (h : a.IsNormal scheme) : a.bare ≠ [] := by
  unfold bare
  simp [h.host.text_ne_nil]

/-! ## User information -/

omit [HostNames] in
theorem cutUserInfo_of_notMem {cs : List Char} (h : '@' ∉ cs) : cutUserInfo cs = (none, cs) := by
  rw [cutUserInfo, if_neg (by simpa using h)]

omit [HostNames] in
/-- The last at sign ends the user information. -/
theorem cutUserInfo_append {cs hostPort : List Char} (h : '@' ∉ hostPort) :
    cutUserInfo (cs ++ '@' :: hostPort) = (some cs, hostPort) := by
  have behind : ∀ c ∈ hostPort.reverse, decide (c ≠ '@') = true := by
    intro c hc
    refine decide_eq_true ?_
    rintro rfl
    exact h (List.mem_reverse.mp hc)
  rw [cutUserInfo, if_pos (by simp)]
  simp only [List.reverse_append, List.reverse_cons, List.append_assoc, List.singleton_append]
  rw [List.dropWhile_append_of_pos behind, List.takeWhile_append_of_pos behind]
  simp

/-- User information is cut off where it ends, and nothing where there is none. -/
theorem IsNormal.cutUserInfo_bare (h : a.IsNormal scheme) :
    ∃ cut, cutUserInfo a.bare = (cut, a.host.text ++ portText a.port) ∧
      cut.getD [] = a.userInfo := by
  have free : '@' ∉ a.host.text ++ portText a.port := by
    rw [List.mem_append, not_or]
    exact ⟨h.host.notMem_text (by decide) (by decide), at_notMem_portText a.port⟩
  unfold bare
  rw [userInfoText_eq]
  split
  · rename_i none
    refine ⟨_, cutUserInfo_of_notMem free, ?_⟩
    simp [userInfo, none.1, none.2, marked]
  · rw [List.append_assoc]
    exact ⟨some a.userInfo, cutUserInfo_append free, rfl⟩

/-- User name and password are read back. -/
theorem IsNormal.readUserInfo_userInfo (h : a.IsNormal scheme) :
    readUserInfo a.userInfo = (a.username, a.password) := by
  have cut := cut_append_marked (h.username.notMem (c := ':') (by decide)) a.password
  simp only [readUserInfo, userInfo, cut, Escape.text_eq_of_isKept h.username]
  cases password : a.password with
  | none => rfl
  | some p =>
      obtain ⟨some, kept⟩ := h.password p password
      have chars : p.toList ≠ [] := fun none => some (String.toList_eq_nil_iff.mp none)
      obtain ⟨c, cs, chars⟩ := List.exists_cons_of_ne_nil chars
      have written := Escape.text_eq_of_isKept kept
      rw [chars] at written
      simp only [Option.map_some, chars, written]

/-! ## Hosts and ports -/

omit [HostNames] in
/-- A colon ends a host only outside of brackets. -/
theorem cutHost_append {cs : List Char} {inside : Bool} (colon : ':' ∈ cs → inside = true)
    (opening : '[' ∉ cs) (closing : ']' ∉ cs) (rest : List Char) :
    cutHost inside (cs ++ rest) =
      (cs ++ (cutHost inside rest).1, (cutHost inside rest).2) := by
  induction cs with
  | nil => rfl
  | cons c cs ih =>
      obtain ⟨opening, opening'⟩ := List.ne_and_not_mem_of_not_mem_cons opening
      obtain ⟨closing, closing'⟩ := List.ne_and_not_mem_of_not_mem_cons closing
      have goesOn : ¬(c = ':' ∧ inside = false) := by
        rintro ⟨rfl, outside⟩
        rw [colon List.mem_cons_self] at outside
        cases outside
      have rest := ih (fun h => colon (List.mem_cons_of_mem c h)) opening' closing'
      rw [List.cons_append, cutHost, if_neg goesOn]
      simp only [if_neg opening.symm, if_neg closing.symm, rest, List.cons_append]

omit [HostNames] in
theorem cutHost_portText (port : Option UInt16) :
    cutHost false (portText port) = ([], portText port) := by
  cases port with
  | none => rfl
  | some p => rfl

/-- A host is told from the port behind it. -/
theorem cutHost_text {host : Host} (normal : host.IsNormal) (port : Option UInt16) :
    cutHost false (host.text ++ portText port) = (host.text, portText port) := by
  have plain {cs : List Char} (allowed : ∀ c ∈ cs, Host.forbidden c = false) :
      cutHost false (cs ++ portText port) = (cs, portText port) := by
    rw [cutHost_append (fun h => absurd (allowed _ h) (by decide))
      (fun h => absurd (allowed _ h) (by decide)) (fun h => absurd (allowed _ h) (by decide)),
      cutHost_portText, List.append_nil]
  cases normal with
  | name some allowed lower notMeant => exact plain allowed
  | v4 x => exact plain fun c hc => Host.forbidden_of_mem_ipv4 hc
  | v6 x =>
      have bracket {c : Char} (other : ∀ d < 16, d.digitChar ≠ c) (colon : c ≠ ':') :
          c ∉ x.text := by
        intro hc
        rcases Ipv6.exists_of_mem_text hc with ⟨d, small, rfl⟩ | rfl
        · exact other d small rfl
        · exact colon rfl
      have last : cutHost true (']' :: portText port) = ([']'], portText port) := by
        rw [cutHost, if_neg (by simp)]
        simp [cutHost_portText]
      have inner : cutHost true (x.text ++ ']' :: portText port) =
          (x.text ++ [']'], portText port) := by
        rw [cutHost_append (fun _ => rfl) (bracket (by decide) (by decide))
          (bracket (by decide) (by decide)), last]
      simp [Host.text, cutHost, inner]

omit [HostNames] in
/-- A port is read back, as it is not the default one. -/
theorem readPortPart_portText {port : Option UInt16}
    (given : ∀ p, port = some p → defaultPort? scheme ≠ some p) :
    readPortPart scheme (portText port) = .ok (port, []) := by
  cases port with
  | none => rfl
  | some p =>
      have digits : ∀ c ∈ Text.decimal p.toNat, c.isDigit = true := fun c hc =>
        Text.isDigit_of_mem_decimal hc
      have all : (Text.decimal p.toNat).takeWhile Char.isDigit = Text.decimal p.toNat :=
        List.takeWhile_eq_self_iff.mpr digits
      have none : (Text.decimal p.toNat).dropWhile Char.isDigit = [] :=
        List.dropWhile_eq_nil_iff.mpr digits
      have small : p.toNat < 65536 := p.toNat_lt_size
      simp only [portText, readPortPart, readPort, all, none, Text.readDigits?_decimal, if_pos small,
        UInt16.ofNat_toNat, Text.decimal_ne_nil, false_or, if_neg (given p rfl)]

theorem IsNormal.readHostPort_text (h : a.IsNormal scheme) (special : isSpecial scheme = true) :
    readHostPort scheme (a.username, a.password) (a.host.text ++ portText a.port) =
      .ok (a, []) := by
  have read : readHost (isSpecial scheme) a.host.text = .ok a.host := by
    rw [readHost, if_pos special, if_neg h.host.text_ne_nil, h.host.read_text]
  have some : a.host ≠ .empty := by
    intro empty
    have normal := h.host
    rw [empty] at normal
    cases normal
  simp only [readHostPort, cutHost_text h.host, read, ok_bind, some, decide_false, Bool.false_and]
  rw [if_neg (by decide), readPortPart_portText h.port]
  rfl

/-! ## Authorities -/

/-- An authority is read back together with what follows it. -/
theorem IsNormal.readAuthority_bare (h : a.IsNormal scheme) (special : isSpecial scheme = true)
    (last : Bool) {rest : List Char} (ends : ∀ c, rest.head? = some c → isSlash true c = true) :
    readAuthority scheme last (a.bare ++ rest) = .ok (a, rest) := by
  have inner : ∀ c ∈ a.bare, (!isSlash (isSpecial scheme) c) = true := by
    intro c hc
    have inner := (h.isInner_of_mem_bare hc).2
    simp only [enders, List.mem_cons, not_or] at inner
    simp [isSlash, inner.1, inner.2.1]
  have behind : rest.takeWhile (fun c => !isSlash (isSpecial scheme) c) = [] ∧
      rest.dropWhile (fun c => !isSlash (isSpecial scheme) c) = rest := by
    cases rest with
    | nil => exact ⟨rfl, rfl⟩
    | cons c cs => simp [special, ends c rfl]
  obtain ⟨cut, split, read⟩ := h.cutUserInfo_bare
  have some : a.host.text ++ portText a.port ≠ [] := by
    simp [h.host.text_ne_nil]
  unfold readAuthority
  simp only [List.takeWhile_append_of_pos inner, List.dropWhile_append_of_pos inner, behind.1,
    behind.2, List.append_nil, split, read, h.readUserInfo_userInfo, some, decide_false,
    Bool.and_false, Bool.false_and]
  rw [if_neg (by decide), h.readHostPort_text special, ok_bind, List.nil_append]
  rfl

/-! ## What reading brings -/

omit [HostNames] in
theorem isNormal_of_readUserInfo (cs : List Char) :
    Escape.IsKept Escape.userInfo (readUserInfo cs).1 ∧
      ∀ p, (readUserInfo cs).2 = some p → p ≠ "" ∧ Escape.IsKept Escape.userInfo p := by
  unfold readUserInfo
  dsimp only
  refine ⟨Escape.isKept_text Escape.keepsEscapes_userInfo _, fun p hp => ?_⟩
  split at hp
  · cases hp
  · cases hp
  · rename_i some _
    cases hp
    exact ⟨Escape.text_ne_empty some, Escape.isKept_text Escape.keepsEscapes_userInfo _⟩

omit [HostNames] in
/-- A port that is read is not the default one. -/
theorem ne_of_readPort {cs rest : List Char} {p : UInt16}
    (h : readPort scheme cs = .ok (some p, rest)) : defaultPort? scheme ≠ some p := by
  unfold readPort at h
  dsimp only at h
  split at h
  all_goals
    first
    | cases h
    | split at h
      · rw [Except.ok.injEq, Prod.mk.injEq] at h
        have given := h.1
        split at given
        · cases given
        · rename_i other
          cases given
          exact fun default => other (.inr default)
      · cases h

omit [HostNames] in
theorem ne_of_readPortPart {cs rest : List Char} {p : UInt16}
    (h : readPortPart scheme cs = .ok (some p, rest)) : defaultPort? scheme ≠ some p := by
  cases cs with
  | nil => cases h
  | cons c cs => exact ne_of_readPort h

theorem isNormal_of_readHostPort {userInfo : String × Option String} {cs rest : List Char}
    (special : isSpecial scheme = true)
    (username : Escape.IsKept Escape.userInfo userInfo.1)
    (password : ∀ p, userInfo.2 = some p → p ≠ "" ∧ Escape.IsKept Escape.userInfo p)
    (h : readHostPort scheme userInfo cs = .ok (a, rest)) : a.IsNormal scheme := by
  obtain ⟨host, read, h⟩ := bind_eq_ok.mp h
  split at h
  · cases h
  · obtain ⟨⟨port, left⟩, portRead, h⟩ := bind_eq_ok.mp h
    cases h
    rw [readHost, if_pos special] at read
    split at read
    · cases read
    · refine ⟨username, password, Host.isNormal_of_read read, fun p given => ?_⟩
      cases given
      exact ne_of_readPortPart portRead

/-- Reading brings an authority in its normal spelling. -/
theorem isNormal_of_readAuthority {last : Bool} {cs rest : List Char}
    (special : isSpecial scheme = true)
    (h : readAuthority scheme last cs = .ok (a, rest)) : a.IsNormal scheme := by
  unfold readAuthority at h
  dsimp only at h
  split at h
  · cases h
  · obtain ⟨⟨b, left⟩, read, h⟩ := bind_eq_ok.mp h
    cases h
    obtain ⟨username, password⟩ := isNormal_of_readUserInfo _
    exact isNormal_of_readHostPort special username password read

end Normal

end Authority

end RegionApi.Url
