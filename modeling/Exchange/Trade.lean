import Exchange.Order
/-!
# Trades

A trade records one match between a resting order (the maker) and an incoming
order (the taker), at the maker's price. Ids count from 0 in each market, so a
trade is named across markets by `Trade.globalId`, the market, a slash and the
decimal id.

The time of execution is the clock reading the caller handed to the book when
it placed the taker, kept as text.
-/

namespace Exchange

/-- One execution between a maker and a taker. -/
structure Trade where
  id : UInt64
  market : String
  price : UInt64
  quantity : UInt64
  makerOrderId : UInt64
  takerOrderId : UInt64
  makerUserId : String
  takerUserId : String
  executedAt : String
  deriving DecidableEq

namespace Trade

/-- The name of a trade across markets: market, slash, decimal id. -/
def globalId (t : Trade) : String := t.market ++ "/" ++ toString t.id.toNat

end Trade

end Exchange
