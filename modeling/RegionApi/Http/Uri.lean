import RegionApi.Url.Basic

/-!
# URLs that can be sent

What a request is for is written to the wire as a URI, and of a URI less is allowed than of a URL:
it is of limited length, its host holds fewer characters, and without two slashes behind the scheme
all of it is read as a host and a port.
-/

namespace RegionApi.Http

/-- The greatest length of a URL that can be sent. -/
def longestUrl : Nat := 65534

/-- The greatest length of a scheme. -/
def longestScheme : Nat := 64

/-- The characters a host may not hold on the wire, though a URL may. -/
def offWire (c : Char) : Bool := ['\x22', '\x25', '\x60', '\x7b', '\x7d'].contains c

/-! ## Texts without slashes -/

/-- What has been seen of a text that is read as user information, host and port. -/
structure AuthorityScan where
  /-- The colons since the user information or the address in brackets. -/
  colons : Nat
  opened : Bool
  closed : Bool
  /-- Whether an escape stands outside of the user information and the brackets. -/
  escaped : Bool
  /-- Whether the user information has just ended. -/
  atSign : Bool

namespace AuthorityScan

/-- Before the first character. -/
def start : AuthorityScan := ⟨0, false, false, false, false⟩

/-- The characters that stand for themselves. -/
def isOrdinary (c : Char) : Bool := c.isAlphanum || "!$&'()*+,-.;=_~".toList.contains c

/-- What has been seen after one more character, if it may stand there. -/
def next? (s : AuthorityScan) (c : Char) : Option AuthorityScan :=
  if c = ':' then
    if s.colons < 8 then some { s with colons := s.colons + 1, atSign := false } else none
  else if c = '[' then
    if s.escaped || s.opened then none else some { s with opened := true, atSign := false }
  else if c = ']' then
    if !s.opened || s.closed then none
    else some { s with closed := true, colons := 0, escaped := false, atSign := false }
  else if c = '@' then some { s with colons := 0, escaped := false, atSign := true }
  else if c = '%' then some { s with escaped := true, atSign := false }
  else if isOrdinary c then some { s with atSign := false }
  else none

/-- Whether the text may end here. -/
def mayEnd (s : AuthorityScan) : Bool :=
  s.opened = s.closed && s.colons ≤ 1 && !s.escaped && !s.atSign

end AuthorityScan

/-- Whether a text is that of an authority: user information, host and port. -/
def isAuthority (cs : List Char) : Bool :=
  match cs.foldlM AuthorityScan.next? .start with
  | some seen => seen.mayEnd
  | none => false

/-! ## URLs -/

/-- Whether a URL can be written as a URI. Path, query and fragment always can be. -/
def isUri (u : Url) : Bool :=
  decide (u.chars.length ≤ longestUrl) &&
    match u.authority, u.host? with
    | some _, some h => decide (u.scheme.length ≤ longestScheme) && !h.text.any offWire
    | some _, none => false
    | none, _ => isAuthority u.chars

/-- Whether a request for a URL can be written to the wire. -/
def isSendable (u : Url) : Bool := u.isHttp && isUri u

theorem isUri_of_isHttp {u : Url} {h : Url.Host} (http : u.isHttp = true)
    (named : u.host? = some h) :
    isUri u = (decide (u.chars.length ≤ longestUrl) && !h.text.any offWire) := by
  have short : u.scheme.length ≤ longestScheme := by
    simp only [Url.isHttp, Bool.or_eq_true, decide_eq_true_eq] at http
    rcases http with http | http <;> rw [http] <;> decide
  obtain ⟨a, authority⟩ : ∃ a, u.authority = some a := by
    cases authority : u.authority with
    | none => simp [Url.host?, authority] at named
    | some a => exact ⟨a, rfl⟩
  simp [isUri, authority, named, short]

end RegionApi.Http
