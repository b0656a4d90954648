import RegionApi.Http.Duration
import RegionApi.Text.Quoted
import RegionApi.Url.Resolve

/-!
# Configurations

Where an API is found, who calls it, and how the connection is secured. A configuration is plain
data: it may hold any text as its address, and only `check` says what is wrong with it.
-/

namespace RegionApi

/-- The description of a client. -/
structure Config where
  /-- The base address of the API. -/
  url : String
  apiKey : Option String
  /-- Whether the certificate of the server is checked. -/
  verifyTls : Bool
  /-- The path of a certificate to trust besides the usual ones. -/
  caCertificate : Option String
  /-- How many seconds a call may take. -/
  timeoutSeconds : UInt64
deriving DecidableEq

namespace Config

/-- The seconds that a call may take unless a configuration says otherwise. -/
def defaultTimeout : UInt64 := 30

/-- The configuration for an address, everything else left as usual. -/
def ofUrl (url : String) : Config :=
  { url
    apiKey := none
    verifyTls := true
    caCertificate := none
    timeoutSeconds := defaultTimeout }

/-- The configuration for a server on this machine. -/
def default : Config := ofUrl "http://localhost:5240/MAAS/api/2.0/"

/-- The configuration with another address. -/
def withUrl (c : Config) (url : String) : Config := { c with url }

/-- The configuration with an API key. -/
def withApiKey (c : Config) (key : String) : Config := { c with apiKey := some key }

/-- The configuration that checks the server's certificate, or does not. -/
def withVerifyTls (c : Config) (on : Bool) : Config := { c with verifyTls := on }

/-- The configuration with the path of a certificate to trust. -/
def withCaCertificate (c : Config) (path : String) : Config := { c with caCertificate := some path }

/-- The configuration with another limit for a call. -/
def withTimeout (c : Config) (seconds : UInt64) : Config := { c with timeoutSeconds := seconds }

/-- How long a call may take. -/
def timeout (c : Config) : Duration := .ofSeconds c.timeoutSeconds.toNat

/-- The base address as a URL. -/
def parseUrl [HostNames] (c : Config) : Except Error Url :=
  match Url.parse c.url with
  | .ok url => .ok url
  | .error f => .error (.parse ("Invalid MAAS URL: " ++ f.message))

/-- An optional text as diagnostics show it. -/
def describeOption : Option String → String
  | none => "None"
  | some s => "Some(" ++ Text.quoted s ++ ")"

/-- A configuration as diagnostics show it. -/
def describe (c : Config) : String :=
  "MaasClientConfig \x7b url: " ++ Text.quoted c.url ++
    ", api_key: " ++ describeOption c.apiKey ++
    ", tls_verify: " ++ (if c.verifyTls then "true" else "false") ++
    ", tls_ca_cert: " ++ describeOption c.caCertificate ++
    ", request_timeout_secs: " ++ String.ofList (Text.decimal c.timeoutSeconds.toNat) ++ " \x7d"

end Config

end RegionApi
