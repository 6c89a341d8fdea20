import Exchange.Book
import Exchange.Balance
import Exchange.Json.Value
/-!
# Wire forms of the domain

The JSON objects that orders, trades, depth and balances travel as. Amounts are
JSON integers written in full; balance tables are objects whose keys come in
ascending order.

Key definitions: `Order.toJson`, `Trade.toJson`, `Depth.toJson`,
`UserBalance.toJson`.
-/

namespace Exchange

open Json

/-- An order as `{id, user_id, side, price, quantity, filled}`. -/
def Order.toJson (o : Order) : Value :=
  .obj [("id", .ofWord o.id), ("user_id", .str o.userId), ("side", .str o.side.name),
    ("price", .ofWord o.price), ("quantity", .ofWord o.quantity), ("filled", .ofWord o.filled)]

/-- A trade with its two orders, two owners and time of execution. -/
def Trade.toJson (t : Trade) : Value :=
  .obj [("id", .ofWord t.id), ("market", .str t.market), ("price", .ofWord t.price),
    ("quantity", .ofWord t.quantity), ("maker_order_id", .ofWord t.makerOrderId),
    ("taker_order_id", .ofWord t.takerOrderId), ("maker_user_id", .str t.makerUserId),
    ("taker_user_id", .str t.takerUserId), ("executed_at", .str t.executedAt)]

/-- A list of trades as an array. -/
def Trade.listToJson (ts : List Trade) : Value := .arr (ts.map Trade.toJson)

/-- An aggregated level as `{price, quantity}`. -/
def Level.toJson (l : Level) : Value :=
  .obj [("price", .ofWord l.price), ("quantity", .ofWord l.quantity)]

/-- Depth as `{bids, asks}`. -/
def Depth.toJson (d : Depth) : Value :=
  .obj [("bids", .arr (d.bids.map Level.toJson)), ("asks", .arr (d.asks.map Level.toJson))]

/-- A table as an object with its assets in ascending order. -/
def Holdings.toJson (h : Holdings) : Value :=
  .obj ((h.entries.mergeSort fun a b => decide (a.1 ≤ b.1)).map fun e => (e.1, .ofWord e.2))

/-- A balance as `{available, locked}`. -/
def UserBalance.toJson (b : UserBalance) : Value :=
  .obj [("available", b.available.toJson), ("locked", b.locked.toJson)]

end Exchange
