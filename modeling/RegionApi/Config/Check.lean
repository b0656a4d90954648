import RegionApi.Config

/-!
# Checking configurations

A configuration is in order if its address is a URL and its time limit is between one second and
five minutes. `ofUrl?` makes a configuration only if it is in order.
-/

namespace RegionApi.Config

/-- The least number of seconds a call may be given. -/
def leastTimeout : UInt64 := 1

/-- The greatest number of seconds a call may be given. -/
def greatestTimeout : UInt64 := 300

/-- Something wrong with a configuration: the value found at fault. -/
inductive Violation where
  | timeout (seconds : UInt64)
  | url (text : String)
deriving DecidableEq

namespace Violation

/-- The name of the member at fault. -/
def field : Violation → String
  | timeout _ => "request_timeout_secs"
  | url _ => "url"

/-- The rule that is broken. -/
def rule : Violation → String
  | timeout _ => "range"
  | url _ => "url"

/-- A number as diagnostics show it. -/
def number (n : UInt64) : String := "Number(" ++ String.ofList (Text.decimal n.toNat) ++ ")"

/-- What the rule was applied to, by name. -/
def parameters : Violation → List (String × String)
  | timeout seconds =>
    [("max", number greatestTimeout), ("min", number leastTimeout), ("value", number seconds)]
  | url text => [("value", "String(" ++ Text.quoted text ++ ")")]

/-- The text of a violation. -/
def message (v : Violation) : String :=
  v.field ++ ": Validation error: " ++ v.rule ++ " [" ++
    Text.enclosed "\x7b" "\x7d" (v.parameters.map fun p => Text.quoted p.1 ++ ": " ++ p.2) ++ "]"

end Violation

/-- Whether a time limit is allowed. -/
def isTimeout (seconds : UInt64) : Bool := leastTimeout ≤ seconds && seconds ≤ greatestTimeout

/-- All that is wrong with a configuration, in the order of the members' names. -/
def check [HostNames] (c : Config) : List Violation :=
  (if isTimeout c.timeoutSeconds then [] else [.timeout c.timeoutSeconds]) ++
    match Url.parse c.url with
    | .ok _ => []
    | .error _ => [.url c.url]

/-- The text of several violations, one a line. -/
def messages (vs : List Violation) : String := String.intercalate "\n" (vs.map Violation.message)

/-- Violations as an error of the library. -/
def violated (vs : List Violation) : Error := .config (messages vs)

/-- The configuration for an address, if it is in order. -/
def ofUrl? [HostNames] (url : String) : Except Error Config :=
  match (ofUrl url).check with
  | [] => .ok (ofUrl url)
  | vs => .error (.config ("Invalid configuration: " ++ messages vs))

end RegionApi.Config
