import RegionApi.Url.Host
import RegionApi.Url.Path

/-!
# URLs

A URL in its parts. Every part is held in the spelling it has in the text of the URL, so that `text`
only puts them together.
-/

namespace RegionApi

namespace Url

/-- Who a URL is addressed to. -/
structure Authority where
  username : String
  /-- Never the empty text: an empty password is no password. -/
  password : Option String
  host : Host
  /-- Never the default port of the scheme. -/
  port : Option UInt16
deriving DecidableEq

end Url

/-- An absolute URL. -/
structure Url where
  scheme : String
  authority : Option Url.Authority
  path : Url.Path
  query : Option String
  fragment : Option String
deriving DecidableEq

namespace Url

/-- The schemes of the web, which have rules of their own. -/
def isSpecial (scheme : String) : Bool :=
  ["http", "https", "ws", "wss", "ftp", "file"].contains scheme

/-- The port a scheme uses when none is given. -/
def defaultPort? (scheme : String) : Option UInt16 :=
  if scheme = "http" || scheme = "ws" then some 80
  else if scheme = "https" || scheme = "wss" then some 443
  else if scheme = "ftp" then some 21
  else none

/-! ## Text -/

/-- User name and password before the host. -/
def Authority.userInfoText (a : Authority) : List Char :=
  match a.password with
  | none => if a.username = "" then [] else a.username.toList ++ ['@']
  | some p => a.username.toList ++ ':' :: p.toList ++ ['@']

/-- A port behind the host. -/
def portText : Option UInt16 → List Char
  | none => []
  | some p => ':' :: Text.decimal p.toNat

/-- An authority behind its two slashes. -/
def Authority.text (a : Authority) : List Char :=
  '/' :: '/' :: a.userInfoText ++ a.host.text ++ portText a.port

/-- What stands between scheme and path. Without an authority a path that begins with two slashes
would be taken for one, so a dot segment keeps them apart. -/
def beforePath (u : Url) : List Char :=
  match u.authority, u.path with
  | some a, _ => a.text
  | none, .segments ("" :: _ :: _) => ['/', '.']
  | none, _ => []

/-- A part behind its mark. -/
def marked (mark : Char) : Option String → List Char
  | none => []
  | some s => mark :: s.toList

/-- The characters of a URL. -/
def chars (u : Url) : List Char :=
  u.scheme.toList ++ ':' :: u.beforePath ++ u.path.text ++
    marked '?' u.query ++ marked '#' u.fragment

/-- The text of a URL. -/
def text (u : Url) : String := String.ofList u.chars

/-! ## Parts -/

/-- The host, if the URL names one. -/
def host? (u : Url) : Option Host :=
  match u.authority with
  | some a => if a.host = .empty then none else some a.host
  | none => none

/-- The port given, if it is not the default one. -/
def port? (u : Url) : Option UInt16 := u.authority.bind (·.port)

/-- The port a connection goes to. -/
def effectivePort? (u : Url) : Option UInt16 := u.port?.orElse fun _ => defaultPort? u.scheme

/-- The text of the path. -/
def pathText (u : Url) : String := String.ofList u.path.text

/-- Whether the URL is of the schemes this library can send to. -/
def isHttp (u : Url) : Bool := u.scheme = "http" || u.scheme = "https"

/-- Whether two URLs are served at the same host and port. -/
def sameServer (u v : Url) : Bool := u.host? = v.host? && u.effectivePort? = v.effectivePort?

/-! ## Changing a part -/

/-- The URL without its fragment. -/
def withoutFragment (u : Url) : Url := { u with fragment := none }

/-- The URL without user name and password. -/
def withoutUserInfo (u : Url) : Url :=
  { u with authority := u.authority.map fun a => { a with username := "", password := none } }

/-- The URL with another query. A flat path loses spaces at its end when nothing follows it any
more. -/
def withQuery (u : Url) (query : Option String) : Url :=
  match query with
  | some q =>
    let kept := q.toList.filter fun c => !List.contains ['\t', '\n', '\r'] c
    { u with query := some (Escape.text (Escape.query (isSpecial u.scheme)) kept) }
  | none =>
    let path := match u.path, u.fragment with
      | .flat s, none => .flat (String.ofList (s.toList.reverse.dropWhile (· = ' ')).reverse)
      | p, _ => p
    { u with path := path, query := none }

/-- The URL with a slash at the end of its path. -/
def asDirectory (u : Url) : Url := { u with path := u.path.closed }

@[simp] theorem fragment_withoutFragment (u : Url) : u.withoutFragment.fragment = none := rfl

@[simp] theorem query_withQuery_none (u : Url) : (u.withQuery none).query = none := rfl

@[simp] theorem scheme_withQuery (u : Url) (q : Option String) :
    (u.withQuery q).scheme = u.scheme := by
  cases q <;> rfl

@[simp] theorem authority_withQuery (u : Url) (q : Option String) :
    (u.withQuery q).authority = u.authority := by
  cases q <;> rfl

@[simp] theorem path_asDirectory (u : Url) : u.asDirectory.path = u.path.closed := rfl

end Url

end RegionApi
