import Exchange.Trade
/-!
# The log of recent trades

Each market keeps its newest trades, oldest first, up to a capacity shared by
all markets (a capacity of zero or less means 1000). Appending adds a batch at
the end and forgets the oldest trades beyond the capacity; an empty batch
changes nothing. `TradeLog.recent` returns the newest `limit` trades, or all of
them when `limit` is not positive or not below their number.

Key definitions: `TradeLog`, `TradeLog.append`, `TradeLog.recent`,
`TradeLog.size`.
-/

namespace Exchange

/-- Recent trades per market, oldest first, at most `capacity` per market. -/
structure TradeLog where
  capacity : Nat
  markets : List (String × List Trade)
  deriving DecidableEq

namespace TradeLog

/-- The capacity used when none is given. -/
def defaultCapacity : Nat := 1000

/-- An empty log keeping `k` trades per market, or 1000 when `k` is not
positive. -/
def create (k : Int) : TradeLog := ⟨if k ≤ 0 then defaultCapacity else k.toNat, []⟩

/-- The retained trades of a market, oldest first. -/
def history (log : TradeLog) (market : String) : List Trade :=
  ((log.markets.find? (·.1 == market)).map (·.2)).getD []

/-- Adds a batch to a market's history, keeping its newest `capacity` trades. -/
def append (log : TradeLog) (market : String) (batch : List Trade) : TradeLog :=
  if batch.isEmpty then log
  else
    let h := log.history market ++ batch
    let h := h.drop (h.length - log.capacity)
    if log.markets.any (·.1 == market) then
      { log with markets := log.markets.map fun e => if e.1 == market then (market, h) else e }
    else { log with markets := log.markets ++ [(market, h)] }

/-- The newest `limit` trades of a market, oldest first; all of them when
`limit` is not positive or not below their number. -/
def recent (log : TradeLog) (market : String) (limit : Int) : List Trade :=
  let h := log.history market
  if 0 < limit && limit < h.length then h.drop (h.length - limit.toNat) else h

/-- The number of trades retained for a market. -/
def size (log : TradeLog) (market : String) : Nat := (log.history market).length

end TradeLog

end Exchange
