import Exchange.Http.Target
/-!
# Routes

The service answers these routes; `{x}` is one path segment.

| method | path | route |
|---|---|---|
| GET | `/healthz` | health |
| GET | `/markets` | the markets |
| POST | `/markets/{market}/orders` | place an order |
| DELETE | `/markets/{market}/orders/{order}` | cancel an order |
| GET | `/markets/{market}/depth` | a market's depth |
| GET | `/markets/{market}/trades` | a market's recent trades |
| POST | `/balances` | credit a balance |
| GET | `/balances/{user}` | a user's balance |
| GET | `/ws` | the trade stream, when it is served |

Routing is decided in this order:

* A method the router does not know (it knows `GET`, `HEAD`, `POST`, `PUT`,
  `PATCH`, `DELETE`, `OPTIONS`, `CONNECT` and `TRACE`, in capitals) is not
  allowed, whatever the path.
* A path that matches a route with another method is not allowed; a path that
  matches none is not found. `CONNECT`, which asks for a tunnel, is routed
  nowhere: it is not found on every path.
* A segment may be empty, except the last segment of the path: `/balances/`
  names no user. Everything under `/markets/{market}` is routed by the market's
  own table, so `/markets/{market}` itself and paths below it that are not
  listed are not found.

A route takes a segment as its text. A segment whose bytes are not UTF-8 text
has none (`none`): it matches no fixed part of a path, and as a market, order
or user it names nothing.

The service is served behind a `Router`, which routes a request by its method
and its path as written. `Router.ofRoutes` is the router over the table above,
matching the bytes of `Http.routingPath` as `Routing.resolve` says; what is
proved of serving holds behind every router.

Key definitions: `Http.Method`, `Http.Route`, `Http.Routing`,
`Http.Routing.resolve`, `Http.Router`, `Http.Router.ofRoutes`.
-/

namespace Exchange.Http

/-- The methods the router knows. -/
inductive Method where
  | get
  | head
  | post
  | put
  | patch
  | delete
  | options
  | connect
  | trace
  deriving DecidableEq, Repr

/-- The method a request line names, if the router knows it. -/
def Method.ofName? : String → Option Method
  | "GET" => some .get
  | "HEAD" => some .head
  | "POST" => some .post
  | "PUT" => some .put
  | "PATCH" => some .patch
  | "DELETE" => some .delete
  | "OPTIONS" => some .options
  | "CONNECT" => some .connect
  | "TRACE" => some .trace
  | _ => none

/-- The name of a method. -/
def Method.name : Method → String
  | .get => "GET"
  | .head => "HEAD"
  | .post => "POST"
  | .put => "PUT"
  | .patch => "PATCH"
  | .delete => "DELETE"
  | .options => "OPTIONS"
  | .connect => "CONNECT"
  | .trace => "TRACE"

theorem Method.ofName?_name (m : Method) : Method.ofName? m.name = some m := by
  cases m <;> rfl

/-- What a request asks for; each name is a path segment's text, if it has
one. -/
inductive Route where
  | health
  | markets
  | placeOrder (market : Option String)
  | cancelOrder (market orderId : Option String)
  | depth (market : Option String)
  | trades (market : Option String)
  | credit
  | balance (user : Option String)
  | stream
  deriving DecidableEq, Repr

/-- How a request is routed. -/
inductive Routing where
  | found (r : Route)
  | methodNotAllowed
  | notFound
  deriving DecidableEq, Repr

namespace Routing

/-- A path's route when the method is `m`: found for `m`; for any other it is
not allowed, except that a `CONNECT` is not found, as no route takes it. -/
def only (want m : Method) (r : Route) : Routing :=
  if m = want then .found r else if m = .connect then .notFound else .methodNotAllowed

/-- Routes the part of a path below `/markets/{market}`, split at `/`. -/
def underMarket (m : Method) (market : Option String) : List (Option String) → Routing
  | [some "orders"] => only .post m (.placeOrder market)
  | [some "orders", id] =>
    if id = some "" then .notFound else only .delete m (.cancelOrder market id)
  | [some "depth"] => only .get m (.depth market)
  | [some "trades"] => only .get m (.trades market)
  | _ => .notFound

/-- Routes a path, split at `/` after its leading `/`. -/
def bySegments (stream : Bool) (m : Method) : List (Option String) → Routing
  | [some "healthz"] => only .get m .health
  | [some "markets"] => only .get m .markets
  | some "markets" :: market :: rest =>
    if market = some "" && rest.isEmpty then .notFound else underMarket m market rest
  | [some "balances"] => only .post m .credit
  | [some "balances", user] =>
    if user = some "" then .notFound else only .get m (.balance user)
  | [some "ws"] => if stream then only .get m .stream else .notFound
  | _ => .notFound

/-- Routes a request by its method's name and the bytes of its routing path;
`stream` tells whether the trade stream is served. -/
def resolve (stream : Bool) (method : String) (path : List UInt8) : Routing :=
  match Method.ofName? method with
  | none => .methodNotAllowed
  | some m =>
    match path with
    | 0x2F :: rest => bySegments stream m ((rest.splitOn 0x2F).map Text.utf8Text?)
    | _ => .notFound

theorem resolve_of_unknown (stream : Bool) (method : String) (path : List UInt8)
    (h : Method.ofName? method = none) : resolve stream method path = .methodNotAllowed := by
  simp [resolve, h]

end Routing

/-- A router: how a request is routed by its method's name and its path as
written. -/
structure Router where
  route : String → String → Routing

/-- The router over the service's routes; `stream` tells whether the trade
stream is served. -/
def Router.ofRoutes (stream : Bool) : Router :=
  ⟨fun method path => Routing.resolve stream method (routingPath path)⟩

end Exchange.Http
