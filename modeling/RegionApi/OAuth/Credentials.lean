import RegionApi.Error
import RegionApi.Text.Quoted

/-!
# Credentials

A caller is known to the server by a consumer and a token, each a key with a secret. The server
hands them out as one API key of three fields; the consumer secret is then empty.
-/

namespace RegionApi.OAuth

/-- A consumer and a token. -/
structure Credentials where
  consumerKey : String
  consumerSecret : String
  tokenKey : String
  tokenSecret : String
deriving DecidableEq

namespace Credentials

/-- The fields of an API key: what stands between its colons. -/
def keyFields (key : String) : List String := (List.splitOn ':' key.toList).map String.ofList

/-- What a caller is told about an API key that has not three fields. -/
def keyFormat : Error :=
  .invalidArgument ("Invalid API key. The format of the key must be " ++
    "\"<consumer key>:<token key>:<token secret>\".")

/-- The credentials of an API key. The fields may be empty. -/
def ofKey (key : String) : Except Error Credentials :=
  match keyFields key with
  | [consumerKey, tokenKey, tokenSecret] => .ok ⟨consumerKey, "", tokenKey, tokenSecret⟩
  | _ => .error keyFormat

/-- The first part that has to be there and is empty; the consumer secret may be. -/
def missing? (c : Credentials) : Option String :=
  if c.consumerKey = "" then some "consumer key"
  else if c.tokenKey = "" then some "token key"
  else if c.tokenSecret = "" then some "token secret"
  else none

/-- Credentials with every part that has to be there. -/
def Complete (c : Credentials) : Prop :=
  c.consumerKey ≠ "" ∧ c.tokenKey ≠ "" ∧ c.tokenSecret ≠ ""

instance (c : Credentials) : Decidable c.Complete :=
  inferInstanceAs (Decidable (_ ∧ _ ∧ _))

theorem missing?_eq_none_iff (c : Credentials) : c.missing? = none ↔ c.Complete := by
  unfold missing? Complete
  split
  · simp_all
  · split
    · simp_all
    · split <;> simp_all

/-- Credentials as diagnostics show them, the secrets blotted out. -/
def describe (c : Credentials) : String :=
  "OAuthToken \x7b consumer_key: " ++ Text.quoted c.consumerKey ++
    ", consumer_secret: SecretBox<str>([REDACTED]), token_key: " ++ Text.quoted c.tokenKey ++
    ", token_secret: SecretBox<str>([REDACTED]) \x7d"

end Credentials

end RegionApi.OAuth
