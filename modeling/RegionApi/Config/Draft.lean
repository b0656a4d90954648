import RegionApi.Config
import RegionApi.Json.Shape

/-!
# The members of a configuration

A configuration is read member by member, in any order. What has been read so far is a draft; it
becomes a configuration once nothing more comes, and members that did not come are filled in. What a
member may hold is decided by the shape of its value alone, so it does not matter where values come
from.
-/

namespace RegionApi.Config

/-- A member. -/
inductive Field where
  | url
  | apiKey
  | verifyTls
  | caCertificate
  | timeout
deriving DecidableEq

namespace Field

/-- All members, in the order in which a list of them stands. -/
def all : List Field := [url, apiKey, verifyTls, caCertificate, timeout]

/-- The name of a member. -/
def name : Field → String
  | url => "url"
  | apiKey => "api_key"
  | verifyTls => "tls_verify"
  | caCertificate => "tls_ca_cert"
  | timeout => "request_timeout_secs"

/-- The member of a name. -/
def ofName? (s : String) : Option Field := all.find? fun f => f.name = s

@[simp] theorem ofName?_name (f : Field) : ofName? f.name = some f := by cases f <;> rfl

end Field

/-- The members read so far. -/
structure Draft where
  url : Option String
  apiKey : Option (Option String)
  verifyTls : Option Bool
  caCertificate : Option (Option String)
  timeout : Option UInt64
deriving DecidableEq

namespace Draft

/-- The draft before anything is read. -/
def empty : Draft := ⟨none, none, none, none, none⟩

/-- Whether a member has been read. -/
def has (d : Draft) : Field → Bool
  | .url => d.url.isSome
  | .apiKey => d.apiKey.isSome
  | .verifyTls => d.verifyTls.isSome
  | .caCertificate => d.caCertificate.isSome
  | .timeout => d.timeout.isSome

/-- The draft with a member, if the member may hold a value of that shape. -/
def put (d : Draft) (f : Field) (v : Json.Shape) : Except Json.Mismatch Draft :=
  match f with
  | .url => (v.text "a string").map fun s => { d with url := some s }
  | .apiKey => (v.optional (·.text "a string")).map fun s => { d with apiKey := some s }
  | .verifyTls => v.truth.map fun b => { d with verifyTls := some b }
  | .caCertificate =>
    (v.optional (·.text "path string")).map fun s => { d with caCertificate := some s }
  | .timeout => v.word.map fun n => { d with timeout := some n }

/-- The configuration that a draft amounts to. Only the address has to be there. -/
def finish (d : Draft) : Except Json.Mismatch Config :=
  match d.url with
  | none => .error (.missingField Field.url.name)
  | some url =>
    .ok { url
          apiKey := d.apiKey.getD none
          verifyTls := d.verifyTls.getD true
          caCertificate := d.caCertificate.getD none
          timeoutSeconds := d.timeout.getD defaultTimeout }

/-- What is expected where a configuration should be. -/
def expectation : String := "struct MaasClientConfig"

/-- What is wrong with a list that ends before a member, if it may not end there. -/
def absent : Field → Option Json.Mismatch
  | .url => some (.wrongLength 0 (expectation ++ " with 5 elements"))
  | .caCertificate => some (.wrongLength 3 (expectation ++ " with 5 elements"))
  | _ => none

@[simp] theorem has_empty (f : Field) : empty.has f = false := by cases f <;> rfl

end Draft

end RegionApi.Config
