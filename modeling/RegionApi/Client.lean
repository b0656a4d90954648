import RegionApi.Event
import RegionApi.Form.Encoding
import RegionApi.Http.Exchange
import RegionApi.Signer

/-!
# Clients

A client calls the resources below one base address. A call goes through the same steps whatever its
verb: its arguments are checked and the resource is resolved, a request is built and signed, the
request is sent, and the answer is told as a success or an error. A client holds no state, so what a
call brings depends on the client, the arguments and the network alone.
-/

namespace RegionApi

/-- The base address of an API, how to sign requests for it, and how to present oneself. -/
structure Client [HostNames] where
  base : Url
  signer : Signer
  agent : Http.Agent
  /-- The base address has been read from a text. -/
  isRead : ∃ address, Url.parse address = .ok base

/-- What came of a call: its result, what was sent for it, and what was reported. -/
structure Call (α : Type) where
  result : Except Error α
  sent : List Http.Sent
  events : List Event

namespace Call

variable {α β : Type}

/-- A call that ends before anything is sent. -/
def refused (e : Error) : Call α := ⟨.error e, [], []⟩

/-- The call with something made of its result. -/
def andThen (c : Call α) (f : α → Except Error β) : Call β := { c with result := c.result >>= f }

@[simp] theorem result_refused (e : Error) : (refused e : Call α).result = .error e := rfl

@[simp] theorem sent_refused (e : Error) : (refused e : Call α).sent = [] := rfl

@[simp] theorem events_refused (e : Error) : (refused e : Call α).events = [] := rfl

@[simp] theorem result_andThen (c : Call α) (f : α → Except Error β) :
    (c.andThen f).result = c.result >>= f := rfl

@[simp] theorem sent_andThen (c : Call α) (f : α → Except Error β) :
    (c.andThen f).sent = c.sent := rfl

@[simp] theorem events_andThen (c : Call α) (f : α → Except Error β) :
    (c.andThen f).events = c.events := rfl

end Call

namespace Client

variable [HostNames]

/-- The name in a query that selects an operation of a resource. -/
def operationName : String := "op"

/-! ## Building requests -/

/-- The URL of a resource: the reference resolved against the base address. -/
def locate (c : Client) (resource : String) : Except Error Url :=
  match c.base.join resource with
  | .ok url => .ok url
  | .error f => .error (.parse ("Invalid MAAS resource \x60" ++ resource ++ "\x60: " ++ f.message))

/-- A URL whose query is a form; the empty form is no query. -/
def withForm (url : Url) (form : Form) : Url :=
  url.withQuery (if form.isEmpty then none else some form.encode)

/-- A form that selects an operation; the empty name selects none. -/
def select (form : Form) (operation : String) : Form :=
  if operation = "" then form else form.set operationName operation

/-- A prepared request, or the fault as an error. -/
def prepare (method : Http.Method) (url : Url) : Except Error Http.Request :=
  match Http.Request.prepare method url with
  | .ok r => .ok r
  | .error f => .error f.toError

/-- A request whose body is a form. -/
def prepareForm (method : Http.Method) (url : Url) (form : Form) : Except Error Http.Request := do
  let r ← prepare method url
  return (r.withHeader ⟨"content-type", Form.contentType, false⟩).withBody (Text.utf8 form.encode)

/-- What a caller is told who gives the operation as a parameter. -/
def reservedName : Error :=
  .invalidArgument ("The parameters contain a value for '" ++ operationName ++
    "' which is a reserved parameter.")

/-- The request of `get`: operation and form make the query. -/
def getRequest (c : Client) (resource operation : String) (form : Form) :
    Except Error Http.Request :=
  if form.contains operationName then .error reservedName
  else do prepare .get (withForm (← c.locate resource) (select form operation))

/-- The request of `post`: the operation makes the query, the form the body. -/
def postRequest (c : Client) (resource operation : String) (form : Form) :
    Except Error Http.Request := do
  prepareForm .post (withForm (← c.locate resource) (select .empty operation)) form

/-- The request of `put`: the form makes the body, and a query stays as the resource has it. -/
def putRequest (c : Client) (resource : String) (form : Form) : Except Error Http.Request := do
  prepareForm .put (← c.locate resource) form

/-- The request of `delete`: an empty body, and a query stays as the resource has it. -/
def deleteRequest (c : Client) (resource : String) : Except Error Http.Request := do
  return (← prepare .delete (← c.locate resource)).withBody []

/-! ## Calls -/

/-- What an outcome means to the caller: a response is the body it brought, or an error that keeps
status and body. -/
def classify : Except Http.Fault Http.Response → Except Error Bytes
  | .ok r =>
    if Http.Status.isSuccess r.status then .ok r.body
    else .error (.api r.status (Http.Status.line r.status) r.body)
  | .error f => .error f.toError

/-- What is reported about a signed request that is sent. -/
def report (r : Http.Request) (outcome : Except Http.Fault Http.Response) : List Event :=
  .sending r.method r.url ::
    match outcome with
    | .ok response => [.received r.method r.url response.status response.body.length]
    | .error _ => []

/-- Signs and sends a request. -/
def dispatch (c : Client) (net : Http.Network) (r : Http.Request) : Call Bytes :=
  match c.signer.sign r with
  | .error e => .refused e
  | .ok signed =>
    let exchange := Http.Exchange.run c.agent net signed
    ⟨classify exchange.outcome, exchange.sent, report signed exchange.outcome⟩

/-- Sends a request if there is one. -/
def issue (c : Client) (net : Http.Network) : Except Error Http.Request → Call Bytes
  | .error e => .refused e
  | .ok r => c.dispatch net r

/-- Reads a resource, perhaps by an operation, with a form as the query. -/
def get (c : Client) (net : Http.Network) (resource operation : String) (form : Form) :
    Call Bytes :=
  c.issue net (c.getRequest resource operation form)

/-- Invokes an operation of a resource with a form as the body. -/
def post (c : Client) (net : Http.Network) (resource operation : String) (form : Form) :
    Call Bytes :=
  c.issue net (c.postRequest resource operation form)

/-- Changes a resource with a form as the body. -/
def put (c : Client) (net : Http.Network) (resource : String) (form : Form) : Call Bytes :=
  c.issue net (c.putRequest resource form)

/-- Removes a resource. -/
def delete (c : Client) (net : Http.Network) (resource : String) : Call Unit :=
  (c.issue net (c.deleteRequest resource)).andThen fun _ => .ok ()

@[simp] theorem issue_error (c : Client) (net : Http.Network) (e : Error) :
    c.issue net (.error e) = .refused e := rfl

@[simp] theorem issue_ok (c : Client) (net : Http.Network) (r : Http.Request) :
    c.issue net (.ok r) = c.dispatch net r := rfl

end Client

end RegionApi
