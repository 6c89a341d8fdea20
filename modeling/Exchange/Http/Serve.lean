import Exchange.Service
import Exchange.Http.Target
import Exchange.Http.Route
import Exchange.Http.Message
import Exchange.Text.Integer
/-!
# Serving requests

`Service.serve` answers one request and returns the service after it, with
the trade batches published on the way.

Before routing, a `POST`, `PUT` or `PATCH` request whose content type does not
start with `application/json` is refused with 400 `invalid_request`, whatever
its path. Then the request is routed by the router the service is served
behind (`Http.Router`; over the service's routes, `Http.Router.ofRoutes`): an
unknown path is 404 with a plain-text body, a known path with another method is
405 with none. A routed request is handled as follows; every id a command carries
is the request's id, except that a placement's body may name its own.

* **Placement.** The body (`request_id`, `base_asset`, `order`) is read; then
  the base asset must be given, then the order, then the order's own fields (an
  `invalid_request` naming the field). The placement answers 201 with its
  result.
* **Cancellation.** The order id must be a decimal 64-bit number (no sign),
  else 400. An order that does not rest is 404 `order_not_found`; otherwise 200
  with the result.
* **Depth** answers 200 with the market and both sides.
* **Trades.** An unknown market is 404. The `limit` query value is 100 when
  missing or empty, and otherwise must be an integer from 1 to 1000. The answer
  is the market's newest trades, oldest first.
* **Credit.** The body (`user_id`, `asset`, `amount`) is read; then the user,
  the asset and the amount must be given, in that order. The answer is the
  user's balance after the credit.
* **Balance.** A user with no record is 404 `user_not_found`.
* **The trade stream** refuses a request that asks for no upgrade: 400, as
  plain text.

The engine's refusals answer as `Http.Response.ofEngineError` says. A market,
order or user segment that has no text names nothing: it is refused as the
engine refuses a name it does not know, at the same point
(`Engine.placeOrder_of_book_none`).

Key definitions: `Served`, `Service.handle`, `Service.serve`.
-/

namespace Exchange

open Http

/-- What serving a request produced: the response, and the trade batches
published on the way. -/
structure Served where
  response : Response
  published : List (String × List Trade)

namespace Service

/-- The number of trades listed when no limit is asked. -/
def defaultTradesLimit : Int := 100

/-- The largest limit of trades that may be asked. -/
def maxTradesLimit : Int := 1000

/-- The limit of trades a query value asks, if it is a valid one. -/
def tradesLimit (raw : String) : Option Int :=
  if raw.isEmpty then some defaultTradesLimit
  else
    match Text.readInteger raw with
    | .ok n => if 1 ≤ n && n ≤ maxTradesLimit then some n else none
    | .error _ => none

/-- A user's balance as the balance routes show it. -/
def balanceJson (user : String) (b : UserBalance) : Json.Value :=
  .obj [("user_id", .str user), ("available", b.available.toJson), ("locked", b.locked.toJson)]

/-- A response that publishes nothing. -/
def answer (s : Service) (r : Response) : Served × Service := (⟨r, []⟩, s)

/-- Dispatches a command; a result is answered by `ok`, a refusal by its
status. -/
def dispatchTo (s : Service) (now fresh : String) (c : Command) (ok : Result → Response) :
    Served × Service :=
  let (d, s') := s.dispatch now fresh c
  match d.outcome with
  | .ok r => (⟨ok r, d.published⟩, s')
  | .error e => (⟨Response.ofEngineError e, d.published⟩, s')

/-- Handles a routed request with request id `id`, body `body` and query
`query`. -/
def handle (s : Service) (now id body query : String) : Route → Served × Service
  | .health => s.answer (.json 200 (.obj [("status", .str "ok")]))
  | .markets =>
    s.answer (.json 200 (.obj [("quote_asset", .str s.engine.quoteAsset),
      ("markets", .ofStrings s.engine.markets)]))
  | .placeOrder market =>
    match PlaceForm.read body with
    | .error e => s.answer (.invalid e.message)
    | .ok f =>
      if f.baseAsset.isEmpty then s.answer (.invalid "base_asset is required")
      else
        match f.order with
        | none => s.answer (.invalid "order is required")
        | some form =>
          match form.toOrder, market with
          | .error e, _ => s.answer (.ofDecodeError e)
          | .ok o, none => s.answer (.ofEngineError (Engine.absentRefusal o))
          | .ok o, some market =>
            let rid := if f.requestId.isEmpty then id else f.requestId
            s.dispatchTo now id (.placeOrder rid market f.baseAsset o) fun r => .json 201 r.toJson
  | .cancelOrder market raw =>
    match raw.bind Text.readWord, market with
    | none, _ => s.answer (.invalid "order_id must be an unsigned integer")
    | some _, none => s.answer (.ofEngineError .marketNotFound)
    | some oid, some market =>
      s.dispatchTo now id (.cancelOrder id market oid) fun r =>
        if r.status = .notFound then
          .problem 404 "order_not_found" "Order is not resting on the book"
        else .json 200 r.toJson
  | .depth none => s.answer (.ofEngineError .marketNotFound)
  | .depth (some market) =>
    s.dispatchTo now id (.getDepth id market) fun r =>
      let d := r.depth.getD ⟨[], []⟩
      .json 200 (.obj [("market", .str market), ("bids", .arr (d.bids.map Level.toJson)),
        ("asks", .arr (d.asks.map Level.toJson))])
  | .trades none => s.answer (.ofEngineError .marketNotFound)
  | .trades (some market) =>
    if !s.engine.hasMarket market then s.answer (.ofEngineError .marketNotFound)
    else
      match tradesLimit (queryValue query "limit") with
      | none => s.answer (.invalid "limit must be an integer between 1 and 1000")
      | some n =>
        s.answer (.json 200 (.obj [("market", .str market),
          ("trades", Trade.listToJson (s.log.recent market n))]))
  | .credit =>
    match CreditForm.read body with
    | .error e => s.answer (.invalid e.message)
    | .ok f =>
      if f.userId.isEmpty then s.answer (.invalid "user_id is required")
      else if f.asset.isEmpty then s.answer (.invalid "asset is required")
      else
        match f.amount with
        | none => s.answer (.invalid "amount is required")
        | some n =>
          s.dispatchTo now id (.addBalance id f.userId f.asset n) fun r =>
            .json 200 (balanceJson f.userId (r.balance.getD .empty))
  | .balance user =>
    match user, user.bind s.engine.balance? with
    | some u, some b => s.answer (.json 200 (balanceJson u b))
    | _, _ => s.answer (.problem 404 "user_not_found" "No balance recorded for user")
  | .stream => s.answer (.text 400 "Bad Request\n")

/-- Whether a method must carry a JSON body. -/
def carriesBody (method : String) : Bool := method = "POST" || method = "PUT" || method = "PATCH"

/-- Answers a request behind a router. `now` is the time written on trades,
`fresh` the id of a request that has none. -/
def serve (s : Service) (now fresh : String) (router : Router) (req : Request) : Served × Service :=
  if carriesBody req.method && !req.contentType.startsWith "application/json" then
    s.answer (.problem 400 "invalid_request" "Content-Type must be application/json")
  else
    let (path, query) := splitTarget req.target
    let id := if req.requestId.isEmpty then fresh else req.requestId
    match router.route req.method path with
    | .found r => s.handle now id req.body query r
    | .methodNotAllowed => s.answer .methodNotAllowed
    | .notFound => s.answer .notFound

end Service

end Exchange
