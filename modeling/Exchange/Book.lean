import Exchange.Trade
/-!
# The order book of one market

A book keeps the resting orders of one market in two lists of price levels,
best first: bids from the highest price down, asks from the lowest price up.
Each level is a queue of orders in arrival order.

`Book.place` crosses an incoming order with the opposite side: while the order
is not filled and the best opposite level accepts its limit, it takes that
level's queue from the front, each resting order giving `min` of the two
remainders, at the level's price; a resting order leaves its queue when filled,
a level leaves its side when empty. What is left of the incoming order then
joins the back of its own level. Only a buy takes the asks; every other side
takes the bids and rests with the asks.

`Book.cancel` removes the first order with an id, scanning the bids best first
and then the asks; `Book.depth` sums the remainders of each level, modulo 2^64.

Key definitions: `PriceLevel`, `Book`, `Book.place`, `Book.cancel`, `Book.depth`.
-/

namespace Exchange

/-- The resting orders at one price on one side of a book, in arrival order. -/
structure PriceLevel where
  price : UInt64
  orders : List Order
  deriving DecidableEq

/-- An aggregated price level: a price and the unfilled quantity resting there. -/
structure Level where
  price : UInt64
  quantity : UInt64
  deriving DecidableEq

/-- Both sides of a book, aggregated by level, best first. -/
structure Depth where
  bids : List Level
  asks : List Level
  deriving DecidableEq

namespace PriceLevel

/-- The unfilled quantity at a level: the sum of the remainders, modulo 2^64. -/
def remaining (l : PriceLevel) : UInt64 := (l.orders.map Order.remaining).foldr (· + ·) 0

/-- The aggregated view of a level. -/
def total (l : PriceLevel) : Level := ⟨l.price, l.remaining⟩

end PriceLevel

/-- Whether an incoming order's limit accepts a resting price: a buy takes a
price at or below its limit, any other side a price at or above it. -/
def Order.accepts (o : Order) (p : UInt64) : Bool :=
  if o.side.isBuy then p ≤ o.price else o.price ≤ p

/-- The book of one market: its bids and asks, best level first, and the id
the next trade receives. -/
structure Book where
  market : String
  bids : List PriceLevel
  asks : List PriceLevel
  nextTradeId : UInt64
  deriving DecidableEq

/-- The outcome of placing an order: the trades, in execution order, and the
order as it left the matching. -/
structure Placed where
  trades : List Trade
  order : Order
  deriving DecidableEq

namespace Book

/-- An empty book for a market. -/
def empty (market : String) : Book := ⟨market, [], [], 0⟩

/-- Where a taker stands after a run against a queue or a side: the taker,
the trades made, what is left of the queue or side, and the next trade id. -/
structure Taken (α : Type) where
  taker : Order
  trades : List Trade
  left : List α
  next : UInt64

/-- The taker against one level's queue, front first, at the level's price:
each resting order gives `min` of the two remainders, and the run stops at the
first resting order that is still unfilled afterwards. -/
def takeQueue (market now : String) (price : UInt64) :
    Order → UInt64 → List Order → Taken Order
  | t, n, [] => ⟨t, [], [], n⟩
  | t, n, m :: ms =>
    if t.isFilled then ⟨t, [], m :: ms, n⟩
    else
      let q := min t.remaining m.remaining
      let t₁ : Order := if q > 0 then { t with filled := t.filled + q } else t
      let m₁ : Order := if q > 0 then { m with filled := m.filled + q } else m
      let made : List Trade :=
        if q > 0 then [⟨n, market, price, q, m.id, t.id, m.userId, t.userId, now⟩] else []
      let n₁ := if q > 0 then n + 1 else n
      if !m₁.isFilled then ⟨t₁, made, m₁ :: ms, n₁⟩
      else
        let r := takeQueue market now price t₁ n₁ ms
        { r with trades := made ++ r.trades }

/-- The taker against the opposite side, best level first, while it is not
filled and the level's price is acceptable. A level whose queue empties is
removed. -/
def takeLevels (market now : String) :
    Order → UInt64 → List PriceLevel → Taken PriceLevel
  | t, n, [] => ⟨t, [], [], n⟩
  | t, n, l :: ls =>
    if t.isFilled || !t.accepts l.price then ⟨t, [], l :: ls, n⟩
    else
      let r := takeQueue market now l.price t n l.orders
      match r.left with
      | [] =>
        let s := takeLevels market now r.taker r.next ls
        { s with trades := r.trades ++ s.trades }
      | q :: qs => ⟨r.taker, r.trades, { l with orders := q :: qs } :: ls, r.next⟩

/-- An order joins the back of its price level on a side whose levels run
best first by `better`; a new level goes before the first worse one. -/
def rest (better : UInt64 → UInt64 → Bool) (o : Order) : List PriceLevel → List PriceLevel
  | [] => [⟨o.price, [o]⟩]
  | l :: ls =>
    if l.price = o.price then { l with orders := l.orders ++ [o] } :: ls
    else if better o.price l.price then ⟨o.price, [o]⟩ :: l :: ls
    else l :: rest better o ls

/-- Bids run from the highest price, asks from the lowest. -/
def bidBetter (a b : UInt64) : Bool := b < a

/-- Asks run from the lowest price. -/
def askBetter (a b : UInt64) : Bool := a < b

/-- Places an order: crosses it with the opposite side, then rests what is
left of it on its own side. `now` is the time written on the trades. -/
def place (b : Book) (now : String) (o : Order) : Placed × Book :=
  if o.side.isBuy then
    let r := takeLevels b.market now o b.nextTradeId b.asks
    let bids := if r.taker.isFilled then b.bids else rest bidBetter r.taker b.bids
    (⟨r.trades, r.taker⟩, { b with asks := r.left, bids := bids, nextTradeId := r.next })
  else
    let r := takeLevels b.market now o b.nextTradeId b.bids
    let asks := if r.taker.isFilled then b.asks else rest askBetter r.taker b.asks
    (⟨r.trades, r.taker⟩, { b with bids := r.left, asks := asks, nextTradeId := r.next })

/-- Removes the first order with an id from a queue. -/
def removeOrder (id : UInt64) : List Order → Option (Order × List Order)
  | [] => none
  | o :: os =>
    if o.id = id then some (o, os)
    else (removeOrder id os).map fun r => (r.1, o :: r.2)

/-- Removes the first order with an id from a side, best level first; a level
left empty goes too. -/
def removeFromSide (id : UInt64) : List PriceLevel → Option (Order × List PriceLevel)
  | [] => none
  | l :: ls =>
    match removeOrder id l.orders with
    | some (o, []) => some (o, ls)
    | some (o, rest) => some (o, { l with orders := rest } :: ls)
    | none => (removeFromSide id ls).map fun r => (r.1, l :: r.2)

/-- Cancels the first resting order with an id, bids before asks. -/
def cancel (b : Book) (id : UInt64) : Option Order × Book :=
  match removeFromSide id b.bids with
  | some (o, bids) => (some o, { b with bids := bids })
  | none =>
    match removeFromSide id b.asks with
    | some (o, asks) => (some o, { b with asks := asks })
    | none => (none, b)

/-- Both sides aggregated by level, best first. -/
def depth (b : Book) : Depth := ⟨b.bids.map PriceLevel.total, b.asks.map PriceLevel.total⟩

/-- The best bid level, if any. -/
def bestBid (b : Book) : Option Level := b.bids.head?.map PriceLevel.total

/-- The best ask level, if any. -/
def bestAsk (b : Book) : Option Level := b.asks.head?.map PriceLevel.total

/-- The number of trades the book has made, which is also the next trade's id. -/
def tradeCount (b : Book) : UInt64 := b.nextTradeId

end Book

end Exchange
