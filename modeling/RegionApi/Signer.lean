import RegionApi.Http.Message
import RegionApi.OAuth.Plaintext

/-!
# Signers

A signer puts onto a request whatever the server wants to see before it answers, or refuses. It is a
function of the request alone, so one signer serves any number of calls.
-/

namespace RegionApi

/-- What is done to a request before it is sent. -/
structure Signer where
  sign : Http.Request → Except Error Http.Request

namespace Signer

/-- Leaves requests as they are. -/
def anonymous : Signer := ⟨.ok⟩

/-- Sets the authorization header to a plaintext signature, in place of any other authorization. -/
def plaintext (p : OAuth.Plaintext) : Signer :=
  ⟨fun r => (Http.Header.ofValue "authorization" p.authorization true).map r.setHeader⟩

/-- Refuses every request. -/
def refusing (e : Error) : Signer := ⟨fun _ => .error e⟩

/-- Adds a header field. -/
def header (name value : String) : Signer :=
  ⟨fun r => (Http.Header.ofValue name value false).map r.withHeader⟩

@[simp] theorem sign_anonymous (r : Http.Request) : anonymous.sign r = .ok r := rfl

@[simp] theorem sign_refusing (e : Error) (r : Http.Request) :
    (refusing e).sign r = .error e := rfl

end Signer

end RegionApi
