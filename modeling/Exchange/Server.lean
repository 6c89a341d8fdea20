import Exchange.Http.Serve
import Exchange.Queue
import Exchange.Stream.Hub
/-!
# The server

The server puts the service behind a router and the queue consumer and, when
it streams trades, beside the stream's connections (`Stream.Sockets`, over a
state of any type): every batch of trades the service publishes, from
whichever door the command came in, is fanned out to the stream's subscribers,
and what each named connection received is reported with the step.

The router is built from the service's routes, with the stream's route when
trades are streamed. An upgrade to the trade stream goes through it as a
`GET`: a target that routes to the stream opens a connection; any other target
is refused with the status the service answers it with.

Key definitions: `Stream.Sockets`, `Server`, `Server.create`,
`Server.dispatch`, `Server.consume`, `Server.serve`, `Server.connect`.
-/

namespace Exchange

open Http

/-- The events each named connection received during a step. -/
abbrev Deliveries := List (String × List Stream.Event)

/-- The trade stream's connections as the server drives them, in a state of
type `σ`: an upgrade opens a connection under a name, and a market's batch is
published to the subscribers, with the events each named connection
received. -/
structure Stream.Sockets (σ : Type) where
  connect : σ → String → σ
  publish : σ → String → List Trade → Deliveries × σ

/-- The service behind its router, and the stream's connections when trades
are streamed. -/
structure Server (σ : Type) where
  service : Service
  router : Router
  stream : Option σ

/-- How an upgrade to the trade stream ended. -/
inductive Upgrade where
  | accepted
  | refused (status : Nat)
  deriving DecidableEq

namespace Server

variable {σ : Type}

/-- A server for a quote asset (empty for the default) with markets added in
order, each with the engine's answer, keeping `history` trades per market
(the default when not positive). Its router is `routes` with the stream's
route exactly when it has the stream's connections `stream`. -/
def create (routes : Bool → Router) (stream : Option σ) (quote : String) (markets : List String)
    (history : Int) : List (Option EngineError) × Server σ :=
  let step (acc : List (Option EngineError) × Engine) (m : String) :=
    let (r, e) := acc.2.addMarket m
    (acc.1 ++ [r], e)
  let (added, engine) := markets.foldl step ([], Engine.create quote)
  (added, ⟨⟨engine, TradeLog.create history⟩, routes stream.isSome, stream⟩)

/-- Adds deliveries to those of the step so far, connection by connection. -/
def mergeDeliveries (acc d : Deliveries) : Deliveries :=
  d.foldl (fun acc e =>
    if acc.any (·.1 == e.1) then acc.map fun x => if x.1 == e.1 then (x.1, x.2 ++ e.2) else x
    else acc ++ [e]) acc

/-- Fans published batches out to the stream, in order. -/
def fanOut (sockets : Stream.Sockets σ) (srv : Server σ) (published : List (String × List Trade)) :
    Deliveries × Server σ :=
  match srv.stream with
  | none => ([], srv)
  | some st =>
    let step (acc : Deliveries × σ) (b : String × List Trade) :=
      let (d, st') := sockets.publish acc.2 b.1 b.2
      (mergeDeliveries acc.1 d, st')
    let (d, st') := published.foldl step ([], st)
    (d, { srv with stream := some st' })

/-- Dispatches a command. -/
def dispatch (sockets : Stream.Sockets σ) (srv : Server σ) (now fresh : String) (c : Command) :
    (Dispatched × Deliveries) × Server σ :=
  let (d, svc) := srv.service.dispatch now fresh c
  let (dl, srv') := { srv with service := svc }.fanOut sockets d.published
  ((d, dl), srv')

/-- Consumes one queued message at an offset. -/
def consume (sockets : Stream.Sockets σ) (srv : Server σ) (now fresh : String) (t : Transport)
    (offset : Nat) (message : String) : (Consumed × Deliveries) × Server σ :=
  let (c, svc) := srv.service.consume now fresh t offset message
  let (dl, srv') := { srv with service := svc }.fanOut sockets c.published
  ((c, dl), srv')

/-- Answers a request. -/
def serve (sockets : Stream.Sockets σ) (srv : Server σ) (now fresh : String) (req : Request) :
    (Served × Deliveries) × Server σ :=
  let (r, svc) := srv.service.serve now fresh srv.router req
  let (dl, srv') := { srv with service := svc }.fanOut sockets r.published
  ((r, dl), srv')

/-- Opens a stream connection under a name through a request target. -/
def connect (sockets : Stream.Sockets σ) (srv : Server σ) (now fresh name target : String) :
    Upgrade × Server σ :=
  match srv.router.route "GET" (splitTarget target).1, srv.stream with
  | .found .stream, some st => (.accepted, { srv with stream := some (sockets.connect st name) })
  | _, _ =>
    let r := srv.service.serve now fresh srv.router ⟨"GET", target, "", fresh, ""⟩
    (.refused r.1.response.status, srv)

end Server

end Exchange
