import RegionApi.Url.Basic

/-!
# References

What is written where a URL is wanted: perhaps a scheme, a body of authority and path, perhaps a
query and a fragment. This module cuts a reference into these pieces and reads the authority; what
the pieces mean against a base is `RegionApi.Url.Resolve`.
-/

namespace RegionApi.Url

/-- A tab or a line break: ignored wherever it stands in a reference. -/
def isBreak (c : Char) : Bool := c = '\t' || c = '\n' || c = '\r'

/-- A control character or a space: ignored at either end of a reference. -/
def isMargin (c : Char) : Bool := c.toNat ≤ 0x20

/-- A reference without what is ignored in it. -/
def cleaned (s : String) : List Char :=
  (((s.toList.dropWhile isMargin).reverse.dropWhile isMargin).reverse).filter fun c => !isBreak c

/-- A character that may stand in a scheme after its first letter. -/
def isSchemeChar (c : Char) : Bool := c.isAlphanum || c = '+' || c = '-' || c = '.'

/-- A scheme, in lower case, and what follows its colon. -/
def splitScheme? (cs : List Char) : Option (String × List Char) :=
  match cs with
  | [] => none
  | c :: _ =>
    if c.isAlpha then
      match cs.dropWhile isSchemeChar with
      | ':' :: rest => some (String.ofList ((cs.takeWhile isSchemeChar).map Char.toLower), rest)
      | _ => none
    else none

/-- A reference behind its scheme. -/
structure Reference where
  body : List Char
  query : Option (List Char)
  fragment : Option (List Char)

namespace Reference

/-- What stands before the first of a mark, and behind it if there is one. -/
def cut (mark : Char) (cs : List Char) : List Char × Option (List Char) :=
  match cs.dropWhile (· ≠ mark) with
  | [] => (cs, none)
  | _ :: rest => (cs.takeWhile (· ≠ mark), some rest)

/-- The pieces of a reference: a fragment behind the first `#`, and before it a query behind the
first `?`. -/
def ofChars (cs : List Char) : Reference :=
  let (front, fragment) := cut '#' cs
  let (body, query) := cut '?' front
  ⟨body, query, fragment⟩

/-- The fragment as a part of a URL. -/
def fragmentText (r : Reference) : Option String := r.fragment.map (Escape.text Escape.fragment)

/-- The query as a part of a URL. -/
def queryText (special : Bool) (r : Reference) : Option String :=
  r.query.map (Escape.text (Escape.query special))

/-- Whether nothing follows the body. -/
def endsWithBody (r : Reference) : Bool := r.query.isNone && r.fragment.isNone

end Reference

/-! ## Authorities -/

variable [HostNames]

/-- A slash; a backslash stands for one in the schemes of the web. -/
def isSlash (special : Bool) (c : Char) : Bool := c = '/' || (special && c = '\\')

/-- What stands before the last at sign, and behind it. -/
def cutUserInfo (cs : List Char) : Option (List Char) × List Char :=
  if cs.contains '@' then
    let reversed := cs.reverse
    (some ((reversed.dropWhile (· ≠ '@')).drop 1).reverse, (reversed.takeWhile (· ≠ '@')).reverse)
  else (none, cs)

/-- User name and password: split at the first colon, an empty password being none. -/
def readUserInfo (cs : List Char) : String × Option String :=
  let (name, password) := Reference.cut ':' cs
  (Escape.text Escape.userInfo name,
    match password with
    | none | some [] => none
    | some p => some (Escape.text Escape.userInfo p))

/-- What stands before the first colon outside of brackets, and the rest from that colon on. -/
def cutHost (inside : Bool) : List Char → List Char × List Char
  | [] => ([], [])
  | c :: cs =>
    if c = ':' ∧ inside = false then ([], c :: cs)
    else
      let (host, rest) := cutHost (if c = '[' then true else if c = ']' then false else inside) cs
      (c :: host, rest)

/-- A port, and what is left behind it, which begins with a slash of either kind if anything is. No
digits are no port, and the default port of the scheme is none either. -/
def readPort (scheme : String) (cs : List Char) : Except Fault (Option UInt16 × List Char) :=
  let digits := cs.takeWhile Char.isDigit
  let rest := cs.dropWhile Char.isDigit
  match Text.readDigits? 10 digits, rest with
  | some n, [] | some n, '/' :: _ | some n, '\\' :: _ =>
    if n < 65536 then
      let port := UInt16.ofNat n
      .ok (if digits = [] ∨ defaultPort? scheme = some port then none else some port, rest)
    else .error .badPort
  | _, _ => .error .badPort

/-- The host of an authority, by the rules of its scheme. -/
def readHost (special : Bool) (cs : List Char) : Except Fault Host :=
  if special then (if cs = [] then .error .emptyHost else Host.read cs) else Host.readPlain cs

/-- What stands behind a host: nothing, or a port behind a colon. -/
def readPortPart (scheme : String) : List Char → Except Fault (Option UInt16 × List Char)
  | [] => .ok (none, [])
  | _ :: digits => readPort scheme digits

/-- An authority in front of what follows it. Without a host there can be no port and no user
information. -/
def readHostPort (scheme : String) (userInfo : String × Option String) (cs : List Char) :
    Except Fault (Authority × List Char) := do
  let (hostText, portText) := cutHost false cs
  let host ← readHost (isSpecial scheme) hostText
  if host = .empty && (!portText.isEmpty || userInfo.1 ≠ "" || userInfo.2.isSome) then
    .error .emptyHost
  else do
    let (port, rest) ← readPortPart scheme portText
    return (⟨userInfo.1, userInfo.2, host, port⟩, rest)

/-- The authority that begins a text, and what follows it. `last` tells that the text is the last
piece of its reference. -/
def readAuthority (scheme : String) (last : Bool) (cs : List Char) :
    Except Fault (Authority × List Char) := do
  let front := cs.takeWhile fun c => !isSlash (isSpecial scheme) c
  let behind := cs.dropWhile fun c => !isSlash (isSpecial scheme) c
  let (userInfo, hostPort) := cutUserInfo front
  if userInfo = some [] && hostPort = [] && !(last && behind = []) then .error .emptyHost
  else do
    let (authority, rest) ← readHostPort scheme (readUserInfo (userInfo.getD [])) hostPort
    return (authority, rest ++ behind)

/-- The path behind an authority. In the schemes of the web there always is one. -/
def pathAfterAuthority (special : Bool) : List Char → Path
  | [] => if special then .segments [""] else .segments []
  | c :: cs => .along special [] (if isSlash special c then cs else c :: cs)

end RegionApi.Url
