import RegionApi.OAuth.Credentials
import RegionApi.Text.Percent

/-!
# The PLAINTEXT signature

OAuth 1.0 lets a request be signed by naming the consumer and the token and giving their secrets,
joined by an ampersand, as the signature. Nothing of the request enters it, so all requests made
with the same credentials carry the same header. `headerFields?` reads such a header back.
-/

namespace RegionApi.OAuth

/-- The realm announced to the server unless another is asked for. -/
def defaultRealm : String := "MAAS API"

/-- Complete credentials and the realm they are for. -/
structure Plaintext where
  credentials : Credentials
  realm : String
  complete : credentials.Complete
deriving DecidableEq

namespace Plaintext

/-- The signature of some credentials, refused if a part is missing. -/
def ofCredentials (c : Credentials) (realm : String) : Except Error Plaintext :=
  match h : c.missing? with
  | some part => .error (.invalidArgument ("OAuth token is missing its " ++ part))
  | none => .ok ⟨c, realm, c.missing?_eq_none_iff.mp h⟩

/-- The signature for an API key, in the default realm. -/
def ofKey (key : String) : Except Error Plaintext := do
  ofCredentials (← Credentials.ofKey key) defaultRealm

/-- The characters that a header field keeps: letters, digits and `-_.~`. -/
def kept (c : Char) : Bool := c.isAlphanum || c = '-' || c = '_' || c = '.' || c = '~'

/-- The secrets, joined by an ampersand. -/
def signature (p : Plaintext) : String :=
  p.credentials.consumerSecret ++ "&" ++ p.credentials.tokenSecret

/-- The fields of the header, in their order. -/
def fields (p : Plaintext) : List (String × String) :=
  [("oauth_consumer_key", p.credentials.consumerKey),
    ("oauth_token", p.credentials.tokenKey),
    ("oauth_signature_method", "PLAINTEXT"),
    ("oauth_signature", p.signature),
    ("oauth_version", "1.0"),
    ("realm", p.realm)]

/-- A field of the header: its name, and its value percent-encoded between double quotes. -/
def field (f : String × String) : String :=
  f.1 ++ "=\"" ++ Text.Percent.encode kept f.2 ++ "\""

/-- The value of the authorization header. -/
def authorization (p : Plaintext) : String :=
  "OAuth " ++ String.intercalate ", " (p.fields.map field)

/-- A signature as diagnostics show it, the secrets blotted out. -/
def describe (p : Plaintext) : String :=
  "PlainTextSigner \x7b token: " ++ p.credentials.describe ++
    ", realm: " ++ Text.quoted p.realm ++ " \x7d"

end Plaintext

/-! ## Reading a header back -/

/-- A header field read back: a name, an equals sign, and a percent-encoded value between quotes. -/
def headerField? (cs : List Char) : Option (String × String) :=
  match (cs.dropWhile (· ≠ '=')).drop 1 with
  | '"' :: rest =>
    if rest.getLast? = some '"' then
      (Text.ofUtf8? (Text.Percent.decodeChars rest.dropLast)).map
        fun value => (String.ofList (cs.takeWhile (· ≠ '=')), value)
    else none
  | _ => none

/-- The fields of an authorization header of the scheme `OAuth`, separated by commas and spaces. -/
def headerFields? (header : String) : Option (List (String × String)) :=
  if "OAuth ".toList.isPrefixOf header.toList then
    let fields := (List.splitOn ',' (header.toList.drop 6)).map fun cs => cs.dropWhile (· = ' ')
    fields.mapM headerField?
  else none

end RegionApi.OAuth
