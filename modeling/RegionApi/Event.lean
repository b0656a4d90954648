import RegionApi.Http.Message

/-!
# Events

What the library reports while it works, for whoever listens. No event holds a header field, so no
credentials are reported.
-/

namespace RegionApi

/-- Something worth reporting. -/
inductive Event where
  /-- A client is made that does not check who it talks to. -/
  | unverified
  /-- A certificate is about to be read from a path. -/
  | loading (path : String)
  /-- A request is about to be sent. -/
  | sending (method : Http.Method) (url : Url)
  /-- An answer has arrived with its whole body. -/
  | received (method : Http.Method) (url : Url) (status bytes : Nat)
deriving DecidableEq

namespace Event

/-- A number as it stands in an event. -/
def number (n : Nat) : String := String.ofList (Text.decimal n)

/-- The line an event is shown as. -/
def text : Event → String
  | unverified => "WARN TLS verification disabled for MAAS client"
  | loading path => "DEBUG loading MAAS CA certificate from " ++ path
  | sending method url => "DEBUG Sending MAAS request method=" ++ method.name ++ " url=" ++ url.text
  | received method url status bytes =>
    "DEBUG MAAS response received method=" ++ method.name ++ " url=" ++ url.text ++
      " status=" ++ number status ++ " bytes=" ++ number bytes

end Event

end RegionApi
