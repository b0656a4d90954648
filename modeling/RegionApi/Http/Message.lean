import RegionApi.Http.Fault
import RegionApi.Http.Header
import RegionApi.Text.Base64

/-!
# Requests and responses

A request begins as a method and a URL. User name and password of the URL do not travel in it: they
become an authorization header of the scheme `Basic`.
-/

namespace RegionApi.Http

/-- What a request asks for. -/
inductive Method where
  | get
  | post
  | put
  | delete
  | other (name : String)
deriving DecidableEq

namespace Method

/-- The word for a method. -/
def name : Method → String
  | get => "GET"
  | post => "POST"
  | put => "PUT"
  | delete => "DELETE"
  | other name => name

/-- The method of a word. -/
def ofName (s : String) : Method :=
  if s = "GET" then get
  else if s = "POST" then post
  else if s = "PUT" then put
  else if s = "DELETE" then delete
  else other s

end Method

/-- A request, ready to be signed and sent. -/
structure Request where
  method : Method
  url : Url
  headers : Headers
  body : Option Bytes
deriving DecidableEq

/-- An answer of a server. -/
structure Response where
  status : Nat
  headers : List (String × String)
  body : Bytes
deriving DecidableEq

/-- The value of the first header field of a name, which is given in lower case. -/
def Response.field? (r : Response) (name : String) : Option String :=
  (r.headers.find? fun p => p.1.toList.map Char.toLower = name.toList).map (·.2)

/-- A part of a URL as the text it spells, if its escapes are UTF-8. -/
def spelled? (s : String) : Option String := Text.ofUtf8? (Text.Percent.decode s)

/-- User name and password of a URL, if it has either; there is none if the name is not UTF-8, and a
password that is not counts as absent. -/
def userInfo? (u : Url) : Option (String × Option String) := do
  let a ← u.authority
  let name ← spelled? a.username
  let password := a.password.bind spelled?
  if name ≠ "" ∨ password.isSome then some (name, password) else none

/-- The authorization header for a user name and a password. -/
def basicAuthorization (name : String) (password : Option String) : Header :=
  let pair := Text.utf8 (name ++ ":" ++ password.getD "")
  ⟨"authorization", "Basic " ++ Text.Base64.encode pair, true⟩

namespace Request

/-- The request for a URL, which has to have a host. -/
def prepare (method : Method) (url : Url) : Except Fault Request :=
  match url.host?, userInfo? url with
  | none, _ => .error (.unsendable url)
  | some _, none => .ok ⟨method, url, [], none⟩
  | some _, some (name, password) =>
    .ok ⟨method, url.withoutUserInfo, [basicAuthorization name password], none⟩

/-- The request with a body. -/
def withBody (r : Request) (body : Bytes) : Request := { r with body := some body }

/-- The request with one more header field. -/
def withHeader (r : Request) (h : Header) : Request := { r with headers := r.headers.append h }

/-- The request with a header field in place of all of its name. -/
def setHeader (r : Request) (h : Header) : Request := { r with headers := r.headers.set h }

@[simp] theorem method_setHeader (r : Request) (h : Header) :
    (r.setHeader h).method = r.method := rfl

@[simp] theorem url_setHeader (r : Request) (h : Header) : (r.setHeader h).url = r.url := rfl

@[simp] theorem body_setHeader (r : Request) (h : Header) : (r.setHeader h).body = r.body := rfl

@[simp] theorem headers_setHeader (r : Request) (h : Header) :
    (r.setHeader h).headers = r.headers.set h := rfl

end Request

end RegionApi.Http
