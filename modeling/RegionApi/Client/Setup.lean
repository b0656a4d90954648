import RegionApi.Certificate
import RegionApi.Client
import RegionApi.Config
import RegionApi.Http.Settings

/-!
# Setting up clients

A client is set up step by step from a base address, or at once from a configuration. `build` makes
the client: it reads the certificate to trust, if one is asked for, and checks the name the client
goes by. All ways to an authenticated client meet in `withKey` and `build`, so they make the same
client; they differ only in which of two faults they tell.
-/

namespace RegionApi.Client

/-! ## Files -/

/-- Why a file cannot be read. -/
inductive FileFault where
  | missing
  | directory
deriving DecidableEq

/-- The text of a fault. -/
def FileFault.message : FileFault → String
  | missing => "No such file or directory (os error 2)"
  | directory => "Is a directory (os error 21)"

/-- What reading a path brings. -/
abbrev Files := String → Except FileFault Bytes

/-! ## Choices -/

variable [HostNames]

/-- What has been chosen for a client. -/
structure Setup where
  base : Url
  signer : Signer
  settings : Http.Settings
  verifyTls : Bool
  caCertificate : Option String
  /-- The base address has been read from a text. -/
  isRead : ∃ address, Url.parse address = .ok base

namespace Setup

/-- The usual choices for a base address. -/
def ofBase (base : String) : Except Error Setup :=
  match h : Url.parse base with
  | .ok url =>
    .ok { base := url
          signer := .anonymous
          settings := .default
          verifyTls := true
          caCertificate := none
          isRead := ⟨base, h⟩ }
  | .error f => .error (.parse ("Invalid MAAS base address \x60" ++ base ++ "\x60: " ++ f.message))

/-- The choice of a signer. -/
def withSigner (s : Setup) (signer : Signer) : Setup := { s with signer }

/-- The choice to sign with an API key. -/
def withKey (s : Setup) (key : String) : Except Error Setup := do
  return s.withSigner (.plaintext (← OAuth.Plaintext.ofKey key))

/-- The choice of connection settings. -/
def withSettings (s : Setup) (settings : Http.Settings) : Setup := { s with settings }

/-- The choice whether the server's certificate is checked. -/
def withVerifyTls (s : Setup) (on : Bool) : Setup := { s with verifyTls := on }

/-- The choice of a certificate to trust. -/
def withCaCertificate (s : Setup) (path : String) : Setup := { s with caCertificate := some path }

/-- The choices of a configuration, which need not be in order. -/
def ofConfig (c : Config) : Except Error Setup := do
  let s ← ofBase c.url
  let s := (s.withSettings (Http.Settings.default.withTimeout c.timeout)).withVerifyTls c.verifyTls
  let s := match c.caCertificate with
    | some path => s.withCaCertificate path
    | none => s
  match c.apiKey with
  | some key => s.withKey key
  | none => return s

/-! ## Making the client -/

/-- The name a client goes by unless another is chosen. -/
def defaultAgent : String := "maas-client/0.1.0"

/-- How the client presents itself. -/
def agent (s : Setup) : Http.Agent :=
  ⟨s.settings.userAgent.getD defaultAgent, s.settings.compression⟩

/-- Whether the certificate to trust can be used. -/
def checkCertificate (files : Files) (path : String) : Except Error Unit :=
  match files path with
  | .error f =>
    .error (.config ("Failed to read MAAS CA certificate " ++ path ++ ": " ++ f.message))
  | .ok file =>
    if Certificate.isIn file then .ok ()
    else .error (.config "Invalid MAAS CA certificate: builder error")

/-- Whether the certificate to trust, if one is asked for, can be used. -/
def checkTrust (s : Setup) (files : Files) : Except Error Unit :=
  match s.caCertificate with
  | some path => checkCertificate files path
  | none => .ok ()

/-- The client of the choices made. -/
def client (s : Setup) (files : Files) : Except Error Client := do
  s.checkTrust files
  if Http.Header.isValue s.agent.name then
    .ok ⟨s.base, s.signer, s.agent, s.isRead⟩
  else
    .error (.config "Failed to build MAAS HTTP client: builder error")

/-- What is reported while the client is made. -/
def events (s : Setup) : List Event :=
  (if s.verifyTls then [] else [.unverified]) ++ (s.caCertificate.map Event.loading).toList

end Setup

/-- What came of making a client: the client, and what was reported. -/
structure Made where
  result : Except Error Client
  events : List Event

namespace Setup

/-- Makes the client. -/
def build (s : Setup) (files : Files) : Made := ⟨s.client files, s.events⟩

/-- Makes the client if the choices could be made. -/
def buildIfOk (files : Files) : Except Error Setup → Made
  | .ok s => s.build files
  | .error e => ⟨.error e, []⟩

end Setup

/-- A client that does not sign. -/
def anonymous (files : Files) (base : String) : Made := Setup.buildIfOk files (Setup.ofBase base)

/-- A client that signs with an API key; a bad key is told before a bad address. -/
def authenticated (files : Files) (base key : String) : Made :=
  Setup.buildIfOk files do
    let p ← OAuth.Plaintext.ofKey key
    return (← Setup.ofBase base).withSigner (.plaintext p)

/-- The client of a configuration. -/
def ofConfig (files : Files) (c : Config) : Made := Setup.buildIfOk files (Setup.ofConfig c)

end RegionApi.Client
