import RegionApi.Http.Duration
import RegionApi.Text.Quoted

/-!
# Connection settings

The few things a caller may choose about the connection: how long to wait, the name the client goes
by, and whether answers may come compressed.
-/

namespace RegionApi.Http

/-- Seconds that a call may take unless another limit is set. -/
def defaultTimeout : Nat := 30

/-- Seconds that a connection may take to come about unless another limit is set. -/
def defaultConnectTimeout : Nat := 10

/-- What a caller chooses about the connection. -/
structure Settings where
  timeout : Duration
  connectTimeout : Duration
  /-- The name the client goes by, in place of the library's own. -/
  userAgent : Option String
  compression : Bool
deriving DecidableEq

namespace Settings

/-- The settings without a choice. -/
def default : Settings :=
  { timeout := .ofSeconds defaultTimeout
    connectTimeout := .ofSeconds defaultConnectTimeout
    userAgent := none
    compression := true }

/-- Settings with another limit for a call. -/
def withTimeout (s : Settings) (d : Duration) : Settings := { s with timeout := d }

/-- Settings with another limit for a connection. -/
def withConnectTimeout (s : Settings) (d : Duration) : Settings := { s with connectTimeout := d }

/-- Settings with another name for the client. -/
def withUserAgent (s : Settings) (name : String) : Settings := { s with userAgent := some name }

/-- Settings that allow or forbid compression. -/
def withCompression (s : Settings) (on : Bool) : Settings := { s with compression := on }

/-- Settings as diagnostics show them. -/
def describe (s : Settings) : String :=
  let agent := match s.userAgent with
    | none => "None"
    | some name => "Some(" ++ Text.quoted name ++ ")"
  "HttpConfig \x7b timeout: " ++ s.timeout.describe ++
    ", connect_timeout: " ++ s.connectTimeout.describe ++ ", user_agent: " ++ agent ++
    ", enable_compression: " ++ (if s.compression then "true" else "false") ++ " \x7d"

end Settings

end RegionApi.Http
