import RegionApi.Url.Basic

/-!
# Why a request brings no answer
-/

namespace RegionApi.Http

/-- The ways in which sending a request can fail. The URL is the one the failure is told with. -/
inductive Fault where
  /-- The URL cannot be sent to: it has no host, or not a scheme or spelling for the wire. -/
  | unsendable (url : Url)
  /-- No connection to the host comes about. -/
  | unreachable (url : Url)
  /-- The connection ends without an answer, or the answer is no HTTP. -/
  | unanswered (url : Url)
  /-- No answer comes in time. -/
  | late (url : Url)
  /-- One redirect too many. -/
  | endless (url : Url)
  /-- The body is shorter than announced. -/
  | brokenBody
  /-- The body does not arrive in time. -/
  | lateBody
deriving DecidableEq

namespace Fault

/-- A text about a URL. -/
def about (text : String) (url : Url) : String := text ++ " for url (" ++ url.text ++ ")"

/-- The text of a failure. -/
def message : Fault → String
  | unsendable url => about "builder error" url
  | unreachable url => "connection failed: " ++ about "error sending request" url
  | unanswered url => about "error sending request" url
  | late url => "request timed out: " ++ about "error sending request" url
  | endless url => about "error following redirect" url
  | brokenBody => "error decoding response body"
  | lateBody => "request timed out: error decoding response body"

/-- A failure as an error of the library. -/
def toError (f : Fault) : Error := .transport f.message

end Fault

end RegionApi.Http
