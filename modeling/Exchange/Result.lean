import Exchange.Engine
import Exchange.Command.Wire
import Exchange.Wire
/-!
# Results

Every command answers with a result: the request id, the command's kind, the
market, a status, and what the kind produced (the order and its trades, the
depth, or the user and balance). A command that failed answers with the error
text and a status that sorts the failure: `not_found` for an unknown market,
`rejected` for a refused order or credit (invalid, unfunded, too large), and
`error` for everything else, including messages that are no command.

A command without a request id gets a fresh one, supplied by the caller.

Key definitions: `Status`, `Result`, `Failure`, `Failure.status`,
`Result.failed`, `Result.toJson`.
-/

namespace Exchange

/-- How a command went. -/
inductive Status where
  | ok
  | rejected
  | notFound
  | error
  deriving DecidableEq, Repr

/-- The name of a status. -/
def Status.name : Status → String
  | .ok => "ok"
  | .rejected => "rejected"
  | .notFound => "not_found"
  | .error => "error"

/-- Why a command failed: its message was no command, or the engine refused. -/
inductive Failure where
  | decode (e : DecodeError)
  | engine (e : EngineError)
  deriving DecidableEq

namespace Failure

/-- The message of a failure. -/
def message : Failure → String
  | .decode e => e.message
  | .engine e => e.message

/-- The status a failure answers with. -/
def status : Failure → Status
  | .decode _ => .error
  | .engine .marketNotFound => .notFound
  | .engine .insufficientFunds => .rejected
  | .engine .amountOverflow => .rejected
  | .engine (.invalid _) => .rejected
  | .engine .marketExists => .error

end Failure

/-- The answer to a command. Empty texts, lists and absent values are left out
of its wire form. -/
structure Result where
  requestId : String
  kind : Option Kind
  market : String
  status : Status
  error : String
  order : Option Order
  trades : List Trade
  depth : Option Depth
  userId : String
  balance : Option UserBalance
  deriving DecidableEq

namespace Result

/-- A successful result with nothing produced yet. -/
def start (c : Command) (fresh : String) : Result :=
  ⟨if c.requestId.isEmpty then fresh else c.requestId, some c.kind, c.market, .ok, "", none, [],
    none, "", none⟩

/-- The result of a failure, for the command when there is one. -/
def failed (c : Option Command) (fresh : String) (f : Failure) : Result :=
  let id := match c with
    | some c => c.requestId
    | none => ""
  ⟨if id.isEmpty then fresh else id, c.map Command.kind, (c.map Command.market).getD "", f.status,
    f.message, none, [], none, "", none⟩

/-- The wire form of a result. -/
def toJson (r : Result) : Json.Value :=
  let opt (b : Bool) (k : String) (v : Json.Value) : List (String × Json.Value) :=
    if b then [(k, v)] else []
  .obj <|
    [("request_id", .str r.requestId), ("type", .str ((r.kind.map Kind.tag).getD ""))] ++
    opt (!r.market.isEmpty) "market" (.str r.market) ++
    [("status", .str r.status.name)] ++
    opt (!r.error.isEmpty) "error" (.str r.error) ++
    (r.order.map fun o => [("order", o.toJson)]).getD [] ++
    opt (!r.trades.isEmpty) "trades" (Trade.listToJson r.trades) ++
    (r.depth.map fun d => [("depth", d.toJson)]).getD [] ++
    opt (!r.userId.isEmpty) "user_id" (.str r.userId) ++
    (r.balance.map fun b => [("balance", b.toJson)]).getD []

end Result

end Exchange
