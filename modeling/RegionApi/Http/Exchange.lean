import RegionApi.Http.Message
import RegionApi.Http.Status
import RegionApi.Http.Uri
import RegionApi.Url.Resolve

/-!
# Exchanges

What happens to a request once it is sent. A network tells which servers can be reached and what
they do with each request that comes to them, one answer after the other. An exchange follows
redirects, at most ten, and keeps a record of everything that went over the wire; it ends in a
response with a complete body or in a fault. A body that was packed for the way is unpacked, if the
client has asked for such bodies.
-/

namespace RegionApi.Http

/-- How much of a body arrives. -/
inductive Delivery where
  | complete
  /-- The connection ends before the announced length. -/
  | cutShort
  /-- Nothing more comes before the announced length. -/
  | stalled
deriving DecidableEq

/-- What a server does with a request. -/
inductive Answer where
  /-- It closes the connection. -/
  | closed
  /-- It sends what is no HTTP. -/
  | garbled
  /-- It sends nothing. -/
  | silent
  | response (r : Response) (delivery : Delivery)
deriving DecidableEq

namespace Answer

/-- Whether the server only tells that its answer is still to come. -/
def isInterim : Answer → Bool
  | response r _ => Status.isInterim r.status
  | _ => false

/-- The answer as it is understood: what has no status is no HTTP. -/
def understood : Answer → Answer
  | response r delivery => if Status.isCode r.status then response r delivery else garbled
  | a => a

end Answer

/-- What unpacking some bytes comes to. -/
inductive Unpacked where
  | whole (body : Bytes)
  /-- More bytes are needed. -/
  | unfinished
  /-- Nothing that begins so can be unpacked. -/
  | broken
deriving DecidableEq

/-- A network: which URLs a connection can be had for, what its servers do with the requests to
come, and what becomes of bodies that are packed with `gzip`. The last answer goes for all further
requests. -/
structure Network where
  reaches : Url → Bool
  answers : List Answer
  unpack : Bytes → Unpacked

namespace Network

/-- The answer of a server that was told nothing: success, and an empty body. -/
def plainAnswer : Answer := .response ⟨200, [], []⟩ .complete

/-- The answer to the next request, and the network after it. What servers tell before their answers
is passed over; one that never tells anything else does not answer. -/
def next (n : Network) : Answer × Network :=
  if n.answers = [] then (plainAnswer, n)
  else
    match n.answers.dropWhile Answer.isInterim with
    | [] => (.silent, n)
    | [a] => (a.understood, { n with answers := [a] })
    | a :: rest => (a.understood, { n with answers := rest })

/-- A network over which plain connections work and secured ones do not, and nothing is packed. -/
def plain (answers : List Answer) : Network :=
  ⟨fun u => u.scheme = "http", answers, fun _ => .broken⟩

/-- A network over which no connection works. -/
def offline (answers : List Answer) : Network := ⟨fun _ => false, answers, fun _ => .broken⟩

@[simp] theorem reaches_next (n : Network) : n.next.2.reaches = n.reaches := by
  unfold next
  split
  · rfl
  · split <;> rfl

@[simp] theorem unpack_next (n : Network) : n.next.2.unpack = n.unpack := by
  unfold next
  split
  · rfl
  · split <;> rfl

end Network

/-- What goes over the wire for one request. -/
structure Sent where
  method : Method
  url : Url
  headers : Headers
  body : Bytes
deriving DecidableEq

/-- How the client presents itself. -/
structure Agent where
  name : String
  compression : Bool
deriving DecidableEq

namespace Agent

/-- The fields a request carries unless it has its own. -/
def headers (a : Agent) : Headers :=
  [⟨"accept", "*/*", false⟩, ⟨"user-agent", a.name, false⟩] ++
    if a.compression then [⟨"accept-encoding", "gzip", false⟩] else []

/-- The fields of a request together with those of the agent that it has not got. -/
def complete (a : Agent) (hs : Headers) : Headers :=
  hs ++ a.headers.filter fun h => !hs.any (·.name = h.name)

end Agent

/-! ## Redirects -/

/-- A request on its way, as the redirects so far have left it. -/
structure Hop where
  method : Method
  url : Url
  headers : Headers
  body : Bytes
  /-- Where the redirect came from. -/
  referer : Option String
  /-- Whether the authorization is held back, as the redirect went to another server. -/
  bare : Bool

namespace Hop

/-- The first hop of a request. -/
def start (agent : Agent) (r : Request) : Hop :=
  { method := r.method
    url := r.url
    headers := agent.complete r.headers
    body := r.body.getD []
    referer := none
    bare := false }

/-- What goes over the wire. -/
def sent (h : Hop) : Sent :=
  let shown := if h.bare then h.headers.erase "authorization" else h.headers
  { method := h.method
    url := h.url.withoutUserInfo.withoutFragment
    headers := match h.referer with
      | some origin => shown.set ⟨"referer", origin, false⟩
      | none => shown
    body := h.body }

/-- Where a response sends the request, if it is a redirect to a place that can be written as a
URI. -/
def target? [HostNames] (h : Hop) (r : Response) : Option Url :=
  if Status.isRedirect r.status then do
    let location ← r.field? "location"
    (h.url.join location).toOption.filter isUri
  else none

/-- Whether a redirect turns the request into a plain request for the new place. -/
def isRewritten (h : Hop) (status : Nat) : Bool :=
  status = 303 || ((status = 301 || status = 302) && h.method = .post)

/-- The referer told to a new place: none when leaving a secured connection for an open one. -/
def refererFor (h : Hop) (target : Url) : Option String :=
  if h.url.scheme = "https" ∧ target.scheme = "http" then none
  else some h.url.withoutUserInfo.withoutFragment.text

/-- The hop to a new place. -/
def redirected (h : Hop) (status : Nat) (target : Url) : Hop :=
  let rewritten := h.isRewritten status
  { method := if rewritten then .get else h.method
    url := target
    headers := if rewritten then h.headers.erase "content-type" else h.headers
    body := if rewritten then [] else h.body
    referer := h.refererFor target
    bare := !h.url.sameServer target }

end Hop

/-! ## Exchanges -/

/-- What came of a request: all that was sent, how it ended, and the network afterwards. -/
structure Exchange where
  sent : List Sent
  outcome : Except Fault Response
  network : Network

namespace Exchange

/-- What the body of a response is, as far as it has arrived. It is unpacked if the agent takes
packed bodies and the response says that it has one, unless there is nothing to unpack. -/
def opened (agent : Agent) (net : Network) (r : Response) : Unpacked :=
  if agent.compression ∧ r.field? "content-encoding" = some "gzip" ∧ r.body ≠ [] then
    net.unpack r.body
  else .whole r.body

/-- The response with the body that is told to the client, if it arrives as announced. What cannot
be unpacked is given up at once. -/
def delivered (agent : Agent) (net : Network) (r : Response) (d : Delivery) :
    Except Fault Response :=
  if Status.isBodiless r.status then .ok { r with body := [] }
  else
    match d, opened agent net r with
    | .complete, .whole body => .ok { r with body }
    | .complete, .unfinished | .cutShort, _ | _, .broken => .error .brokenBody
    | .stalled, _ => .error .lateBody

/-- The exchange with something sent before. -/
def after (s : Sent) (e : Exchange) : Exchange := { e with sent := s :: e.sent }

/-- Sends a hop, with a number of redirects left. Faults are told with the URL of the first hop. -/
def travel [HostNames] (agent : Agent) (first : Url) : Nat → Network → Hop → Exchange
  | left, net, hop =>
    if !isSendable hop.url then ⟨[], .error (.unsendable hop.url), net⟩
    else if !net.reaches hop.url then ⟨[], .error (.unreachable first), net⟩
    else
      match net.next with
      | (.closed, rest) | (.garbled, rest) => ⟨[hop.sent], .error (.unanswered first), rest⟩
      | (.silent, rest) => ⟨[hop.sent], .error (.late first), rest⟩
      | (.response r delivery, rest) =>
        match hop.target? r, left with
        | none, _ => ⟨[hop.sent], delivered agent net r delivery, rest⟩
        | some _, 0 => ⟨[hop.sent], .error (.endless hop.url.withoutFragment), rest⟩
        | some target, left + 1 =>
          after hop.sent (travel agent first left rest (hop.redirected r.status target))

/-- How many redirects are followed. -/
def redirectLimit : Nat := 10

/-- Sends a request. -/
def run [HostNames] (agent : Agent) (net : Network) (r : Request) : Exchange :=
  travel agent r.url redirectLimit net (.start agent r)

end Exchange

end RegionApi.Http
