import Exchange.Order
/-!
# Commands

The four things a transport may ask of the engine: place an order on a market,
cancel a resting order, read a market's depth, credit a user's balance. Each
carries the caller's request id, empty when the caller gave none.

Key definitions: `Kind`, `Command`, `Command.market`.
-/

namespace Exchange

/-- The kind of a command. -/
inductive Kind where
  | placeOrder
  | cancelOrder
  | getDepth
  | addBalance
  deriving DecidableEq, Repr

namespace Kind

/-- The tag a kind travels under. -/
def tag : Kind → String
  | .placeOrder => "PLACE_ORDER"
  | .cancelOrder => "CANCEL_ORDER"
  | .getDepth => "GET_DEPTH"
  | .addBalance => "ADD_BALANCE"

/-- The kind a tag names, if any. -/
def ofTag? : String → Option Kind
  | "PLACE_ORDER" => some .placeOrder
  | "CANCEL_ORDER" => some .cancelOrder
  | "GET_DEPTH" => some .getDepth
  | "ADD_BALANCE" => some .addBalance
  | _ => none

theorem ofTag?_tag (k : Kind) : ofTag? k.tag = some k := by
  cases k <;> rfl

end Kind

/-- A command, with the caller's request id first. -/
inductive Command where
  | placeOrder (requestId market baseAsset : String) (order : Order)
  | cancelOrder (requestId market : String) (orderId : UInt64)
  | getDepth (requestId market : String)
  | addBalance (requestId userId asset : String) (amount : UInt64)
  deriving DecidableEq

namespace Command

/-- The kind of a command. -/
def kind : Command → Kind
  | .placeOrder .. => .placeOrder
  | .cancelOrder .. => .cancelOrder
  | .getDepth .. => .getDepth
  | .addBalance .. => .addBalance

/-- The caller's request id. -/
def requestId : Command → String
  | .placeOrder r .. => r
  | .cancelOrder r .. => r
  | .getDepth r .. => r
  | .addBalance r .. => r

/-- The market a command targets, empty for a credit, which targets none. -/
def market : Command → String
  | .placeOrder _ m .. => m
  | .cancelOrder _ m _ => m
  | .getDepth _ m => m
  | .addBalance .. => ""

end Command

end Exchange
