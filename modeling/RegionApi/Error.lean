import RegionApi.Text.Bytes

/-!
# Errors

What a caller is told when a call, or the making of a client, fails. An error is its kind and its
text: the modules that find a fault keep it as a cause of their own type and word it here only when
it leaves the library. An answer of the server that reports no success is an error too, and it
keeps the server's status and body.
-/

namespace RegionApi

/-- The kinds of failure, each with what the caller is told. -/
inductive Error where
  /-- A base address or a resource reference cannot be read. -/
  | parse (text : String)
  /-- An argument is missing, malformed or reserved. -/
  | invalidArgument (text : String)
  /-- The request could not be sent, or no complete answer came back. -/
  | transport (text : String)
  /-- The server answered with a status that reports no success. -/
  | api (status : Nat) (statusLine : String) (body : Bytes)
  /-- A body or a configuration text is not the JSON it should be. -/
  | decode (text : String)
  /-- The client cannot be set up as asked. -/
  | config (text : String)
deriving DecidableEq

namespace Error

/-- A stable word for the kind of an error. -/
def code : Error → String
  | parse _ => "PARSE_ERROR"
  | invalidArgument _ => "INVALID_ARGUMENT"
  | transport _ => "TRANSPORT_ERROR"
  | api _ _ _ => "API_ERROR"
  | decode _ => "DECODE_ERROR"
  | config _ => "CONFIG_ERROR"

/-- The text shown for an error. -/
def message : Error → String
  | parse text => "Parse error: " ++ text
  | invalidArgument text => "Invalid argument: " ++ text
  | transport text => "Transport error: " ++ text
  | api _ statusLine _ => "Error requesting the MAAS server: " ++ statusLine ++ "."
  | decode text => "Failed to decode MAAS response: " ++ text
  | config text => "Configuration error: " ++ text

/-- The status the server answered with. -/
def status? : Error → Option Nat
  | api status _ _ => some status
  | _ => none

/-- The body the server sent along with its status. -/
def body? : Error → Option Bytes
  | api _ _ body => some body
  | _ => none

/-- Whether the server was reached and answered. -/
def isApi : Error → Bool
  | api _ _ _ => true
  | _ => false

@[simp] theorem status?_api (s : Nat) (l : String) (b : Bytes) : (api s l b).status? = some s := rfl

@[simp] theorem body?_api (s : Nat) (l : String) (b : Bytes) : (api s l b).body? = some b := rfl

end Error

end RegionApi
