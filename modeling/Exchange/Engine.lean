import Exchange.Book
import Exchange.Ledger
/-!
# The engine

The engine owns one book per market and the ledger shared by all markets. Buy
orders escrow the quote asset (`USDT` unless configured), sell orders the
market's base asset.

`Engine.placeOrder` admits an order in four checks, the first failure being
the answer: the order is valid, its market exists, its escrow amount fits 64
bits, and the user has that much available. Only then is the amount locked and
the order placed on the book. Escrow is never released: trades and
cancellations leave locked funds as they are.

Key definitions: `EngineError`, `Engine`, `Engine.placeOrder`,
`Engine.cancelOrder`, `Engine.depth`, `Engine.credit`.
-/

namespace Exchange

/-- Why the engine refused an operation. -/
inductive EngineError where
  | invalid (e : ValidationError)
  | marketNotFound
  | marketExists
  | insufficientFunds
  | amountOverflow
  deriving DecidableEq

/-- The message of an engine error: a refused order's reason, or the name of
the condition. -/
def EngineError.message : EngineError → String
  | .invalid e => e.message
  | .marketNotFound => "market_not_found"
  | .marketExists => "market_already_exists"
  | .insufficientFunds => "insufficient_funds"
  | .amountOverflow => "amount_overflow"

/-- The books of all markets, in the order added, and the ledger. -/
structure Engine where
  quoteAsset : String
  ledger : Ledger
  books : List Book
  deriving DecidableEq

/-- An admitted order: its state after matching, its trades, and whether a
remainder rests on the book. -/
structure Placement where
  order : Order
  trades : List Trade
  rested : Bool
  deriving DecidableEq

namespace Engine

/-- The quote asset used when none is configured. -/
def defaultQuoteAsset : String := "USDT"

/-- An engine with no markets; an empty quote asset means the default. -/
def create (quote : String) : Engine :=
  ⟨if quote.isEmpty then defaultQuoteAsset else quote, .empty, []⟩

/-- The book of a market, if the market exists. -/
def book? (e : Engine) (market : String) : Option Book := e.books.find? (·.market == market)

/-- Whether a market exists. -/
def hasMarket (e : Engine) (market : String) : Bool := (e.book? market).isSome

/-- Adds a market with an empty book; a market added twice keeps its book. -/
def addMarket (e : Engine) (market : String) : Option EngineError × Engine :=
  if e.hasMarket market then (some .marketExists, e)
  else (none, { e with books := e.books ++ [Book.empty market] })

/-- The names of the markets in ascending order. -/
def markets (e : Engine) : List String :=
  (e.books.map (·.market)).mergeSort fun a b => decide (a ≤ b)

/-- Replaces the book of a market. -/
def setBook (e : Engine) (b : Book) : Engine :=
  { e with books := e.books.map fun x => if x.market == b.market then b else x }

/-- Admits and places an order; `now` is the time written on its trades. -/
def placeOrder (e : Engine) (now market : String) (o : Order) (base : String) :
    Except EngineError Placement × Engine :=
  match o.validate with
  | some v => (.error (.invalid v), e)
  | none =>
    match e.book? market with
    | none => (.error .marketNotFound, e)
    | some b =>
      match o.escrow e.quoteAsset base with
      | none => (.error .amountOverflow, e)
      | some (asset, amount) =>
        let (ok, ledger) := e.ledger.escrow o.userId asset amount
        if !ok then (.error .insufficientFunds, { e with ledger := ledger })
        else
          let (p, b') := b.place now o
          (.ok ⟨p.order, p.trades, !p.order.isFilled⟩, { e with ledger := ledger }.setBook b')

/-- How a placement in a market with no book is refused: an order that fails
its own checks for them, any other as an unknown market. -/
def absentRefusal (o : Order) : EngineError :=
  match o.validate with
  | some v => .invalid v
  | none => .marketNotFound

/-- A placement in a market with no book is refused as `absentRefusal` says,
and changes nothing. -/
theorem placeOrder_of_book_none (e : Engine) (now market : String) (o : Order) (base : String)
    (h : e.book? market = none) :
    e.placeOrder now market o base = (.error (absentRefusal o), e) := by
  unfold placeOrder absentRefusal
  cases o.validate <;> simp [h]

/-- Cancels a resting order: the order, or none when no such order rests. -/
def cancelOrder (e : Engine) (market : String) (id : UInt64) :
    Except EngineError (Option Order) × Engine :=
  match e.book? market with
  | none => (.error .marketNotFound, e)
  | some b => let (o, b') := b.cancel id; (.ok o, e.setBook b')

/-- The depth of a market. -/
def depth (e : Engine) (market : String) : Except EngineError Depth :=
  match e.book? market with
  | none => .error .marketNotFound
  | some b => .ok b.depth

/-- Credits a user: the record after the call, and whether the credit was
refused for overflow. -/
def credit (e : Engine) (user asset : String) (amount : UInt64) : (UserBalance × Bool) × Engine :=
  let r := e.ledger.credit user asset amount
  (r.1, { e with ledger := r.2 })

/-- A user's balance record, if any. -/
def balance? (e : Engine) (user : String) : Option UserBalance := e.ledger.balance? user

end Engine

end Exchange
