import RegionApi.Client

/-!
# Calls side by side

A client is shared by any number of tasks. Each task makes one call in four steps: it builds its
request, signs it, sends it and receives the answer. The steps of different tasks may come in any
order; a pool is where all tasks stand and what has gone over the wire, and a schedule says which
task makes a step next.
-/

namespace RegionApi.Client

/-- Where a task stands. -/
inductive Stage where
  | waiting
  | built (r : Http.Request)
  | signed (r : Http.Request)
  | sent (outcome : Except Http.Fault Http.Response)
  | done (result : Except Error Bytes)

namespace Stage

/-- What a task brought, once it is done. -/
def result? : Stage → Option (Except Error Bytes)
  | done result => some result
  | _ => none

end Stage

/-- The tasks of a client, what they have sent so far, and the network they share. -/
structure Pool where
  stages : List Stage
  wire : List Http.Sent
  network : Http.Network

namespace Pool

/-- Tasks that have not begun. -/
def start (net : Http.Network) (n : Nat) : Pool := ⟨List.replicate n .waiting, [], net⟩

variable [HostNames]

/-- The next step of a task that was asked for a request: the stage it reaches, what it sends, and
the network afterwards. -/
def advance (c : Client) (request : Except Error Http.Request) (net : Http.Network) :
    Stage → Stage × List Http.Sent × Http.Network
  | .waiting =>
    match request with
    | .ok r => (.built r, [], net)
    | .error e => (.done (.error e), [], net)
  | .built r =>
    match c.signer.sign r with
    | .ok signed => (.signed signed, [], net)
    | .error e => (.done (.error e), [], net)
  | .signed r =>
    let exchange := Http.Exchange.run c.agent net r
    (.sent exchange.outcome, exchange.sent, exchange.network)
  | .sent outcome => (.done (classify outcome), [], net)
  | .done result => (.done result, [], net)

/-- The pool after a step of one task; there is no step if there is no such task. -/
def step (c : Client) (request : Nat → Except Error Http.Request) (p : Pool) (i : Nat) : Pool :=
  match p.stages[i]? with
  | none => p
  | some stage =>
    let (reached, sent, net) := advance c (request i) p.network stage
    ⟨p.stages.set i reached, p.wire ++ sent, net⟩

/-- The pool after the steps of a schedule. -/
def run (c : Client) (request : Nat → Except Error Http.Request) (schedule : List Nat) (p : Pool) :
    Pool :=
  schedule.foldl (step c request) p

/-- The results of the tasks that are done, in the order of the tasks. -/
def results (p : Pool) : List (Except Error Bytes) := p.stages.filterMap Stage.result?

/-- A schedule that lets all tasks of a pool finish, one step of each at a time. -/
def inTurns (n : Nat) : List Nat := (List.replicate 4 (List.range n)).flatten

end Pool

variable [HostNames]

/-- The request of the i-th of several numbered reads: the number is a parameter. -/
def numberedRequest (c : Client) (resource operation : String) (i : Nat) :
    Except Error Http.Request :=
  c.getRequest resource operation (Form.empty.add "n" (String.ofList (Text.decimal i)))

/-- Several numbered reads side by side, in turns. -/
def getNumbered (c : Client) (net : Http.Network) (resource operation : String) (n : Nat) : Pool :=
  Pool.run c (c.numberedRequest resource operation) (Pool.inTurns n) (.start net n)

end RegionApi.Client
