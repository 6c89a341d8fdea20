import Exchange.Result
import Exchange.TradeLog
/-!
# The service

The service runs commands against the engine and hands the trades of every
placement off: a non-empty batch goes to the market's trade log and then to
the publisher, which fans it out to subscribers. Each dispatch reports the
batches it published, in order.

* A placement answers with the order after matching and its trades.
* A cancellation answers with the removed order; when no such order rests the
  status is `not_found` and no order is given.
* A depth query answers with both sides of the book.
* A credit answers with the user and the balance after it.

Refusals of the engine are errors of the dispatch, not results.

Key definitions: `Service`, `Dispatched`, `Service.dispatch`.
-/

namespace Exchange

/-- The engine and the log of recent trades. -/
structure Service where
  engine : Engine
  log : TradeLog
  deriving DecidableEq

/-- What a dispatch produced: the result or the engine's refusal, and the
batches published, each with its market. -/
structure Dispatched where
  outcome : Except EngineError Result
  published : List (String × List Trade)

namespace Service

/-- Hands a batch of trades off: to the log, and to the publisher. An empty
batch goes nowhere. -/
def record (s : Service) (market : String) (batch : List Trade) :
    List (String × List Trade) × Service :=
  if batch.isEmpty then ([], s)
  else ([(market, batch)], { s with log := s.log.append market batch })

/-- Runs a command. `now` is the time written on trades; `fresh` is the
request id of a command that has none. -/
def dispatch (s : Service) (now fresh : String) (c : Command) : Dispatched × Service :=
  let r := Result.start c fresh
  match c with
  | .placeOrder _ market base order =>
    match s.engine.placeOrder now market order base with
    | (.error e, eng) => (⟨.error e, []⟩, { s with engine := eng })
    | (.ok p, eng) =>
      let (pub, s') := { s with engine := eng }.record market p.trades
      (⟨.ok { r with order := some p.order, trades := p.trades }, pub⟩, s')
  | .cancelOrder _ market id =>
    match s.engine.cancelOrder market id with
    | (.error e, eng) => (⟨.error e, []⟩, { s with engine := eng })
    | (.ok none, eng) => (⟨.ok { r with status := .notFound }, []⟩, { s with engine := eng })
    | (.ok (some o), eng) => (⟨.ok { r with order := some o }, []⟩, { s with engine := eng })
  | .getDepth _ market =>
    match s.engine.depth market with
    | .error e => (⟨.error e, []⟩, s)
    | .ok d => (⟨.ok { r with depth := some d }, []⟩, s)
  | .addBalance _ user asset amount =>
    -- the credit's outcome is read by projections only, so that the service
    -- after it can be read without deciding whether it was refused
    let credited := s.engine.credit user asset amount
    (⟨if credited.1.2 then .error .amountOverflow
      else .ok { r with userId := user, balance := some credited.1.1 }, []⟩,
      { s with engine := credited.2 })

end Service

end Exchange
