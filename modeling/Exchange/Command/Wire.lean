import Exchange.Command.Basic
import Exchange.Json.Decode
/-!
# Commands on the wire

A message is one JSON object with a `type` tag and the fields of its kind:
`request_id`, `market`, `base_asset`, `order`, `orderId`, `userId`, `asset`,
`amount`. `Command.decode` reads it in two stages. First the text is read into
an `Envelope`, every field optional (see `Json.readRecord` for how keys match
and how mismatches are reported). Then the tag picks the kind and the kind's
fields are checked in order:

* place: `market`, `base_asset` (missing or empty is refused), `order`
  (missing), then the order's `id`, `user_id` (missing or empty), `price`,
  `quantity`, and last the order's own validation;
* cancel: `market`, then `orderId`;
* depth: `market`;
* credit: `userId`, `asset`, then `amount`.

An unknown tag is refused as an unknown command. `Command.toJson` writes a
command back: the tag, the request id unless empty, and the kind's fields,
the order always with all six of its own.

Key definitions: `Envelope`, `DecodeError`, `Command.decode`, `Command.toJson`.
-/

namespace Exchange

open Json

/-- An order as a message carries it: all but its side and filled part may be
missing. -/
structure OrderForm where
  id : Option UInt64
  userId : Option String
  side : String
  price : Option UInt64
  quantity : Option UInt64
  filled : UInt64
  deriving DecidableEq

/-- The order form before any member is read. -/
def OrderForm.empty : OrderForm := ⟨none, none, "", none, none, 0⟩

/-- A message as read, before its kind's fields are checked. -/
structure Envelope where
  tag : String
  requestId : String
  market : Option String
  baseAsset : Option String
  order : Option OrderForm
  orderId : Option UInt64
  userId : Option String
  asset : Option String
  amount : Option UInt64
  deriving DecidableEq

/-- The envelope before any member is read. -/
def Envelope.empty : Envelope := ⟨"", "", none, none, none, none, none, none, none⟩

/-- A text field that may be missing. -/
def optionalText : Slot (Option String) := optionSlot "" (textSlot "string")

/-- A 64-bit field that may be missing. -/
def optionalWord : Slot (Option UInt64) := optionSlot 0 wordSlot

/-- The fields of an order form. -/
def OrderForm.fields : List (RecordField OrderForm) :=
  [.on "id" optionalWord (·.id) fun o x => { o with id := x },
   .on "user_id" optionalText (·.userId) fun o x => { o with userId := x },
   .on "side" (textSlot "domain.Side") (·.side) fun o x => { o with side := x },
   .on "price" optionalWord (·.price) fun o x => { o with price := x },
   .on "quantity" optionalWord (·.quantity) fun o x => { o with quantity := x },
   .on "filled" wordSlot (·.filled) fun o x => { o with filled := x }]

/-- An order form read as an optional field of a record. -/
def OrderForm.slot (strict : Bool) : Slot (Option OrderForm) :=
  optionSlot OrderForm.empty (recordSlot "WireOrder" "command.WireOrder" OrderForm.fields strict)

/-- The fields of an envelope. -/
def Envelope.fields : List (RecordField Envelope) :=
  [.on "type" (textSlot "command.Kind") (·.tag) fun e x => { e with tag := x },
   .on "request_id" (textSlot "string") (·.requestId) fun e x => { e with requestId := x },
   .on "market" optionalText (·.market) fun e x => { e with market := x },
   .on "base_asset" optionalText (·.baseAsset) fun e x => { e with baseAsset := x },
   .on "order" (OrderForm.slot false) (·.order) fun e x => { e with order := x },
   .on "orderId" optionalWord (·.orderId) fun e x => { e with orderId := x },
   .on "userId" optionalText (·.userId) fun e x => { e with userId := x },
   .on "asset" optionalText (·.asset) fun e x => { e with asset := x },
   .on "amount" optionalWord (·.amount) fun e x => { e with amount := x }]

/-- Why a message is not a command. -/
inductive DecodeError where
  /-- The text is no JSON document, or does not fit the envelope. -/
  | malformed (e : ReadError)
  /-- A field the kind needs is missing (or, for a text, empty). -/
  | missing (kind : Kind) (field : String)
  /-- The order of a placement fails its validation. -/
  | invalid (kind : Kind) (field : String) (e : ValidationError)
  /-- The tag names no kind. -/
  | unknownKind (tag : String)
  deriving DecidableEq

namespace DecodeError

/-- The message of a decode error. -/
def message : DecodeError → String
  | .malformed e => "decode command: " ++ e.message
  | .missing k f => "decode " ++ k.tag ++ ": field " ++ Text.quote f ++ " is required"
  | .invalid k f e => "decode " ++ k.tag ++ ": field " ++ Text.quote f ++ ": " ++ e.message
  | .unknownKind t => "unknown_command: " ++ Text.quote t

/-- The kind an error is about, if the message got that far. -/
def kind? : DecodeError → Option Kind
  | .missing k _ => some k
  | .invalid k _ _ => some k
  | _ => none

/-- The field an error is about, empty when none. -/
def field : DecodeError → String
  | .missing _ f => f
  | .invalid _ f _ => f
  | _ => ""

end DecodeError

/-- A text field a kind needs: present and not empty. -/
def required (k : Kind) (field : String) : Option String → Except DecodeError String
  | some s => if s = "" then .error (.missing k field) else .ok s
  | none => .error (.missing k field)

/-- A field a kind needs: present. -/
def present {α : Type} (k : Kind) (field : String) : Option α → Except DecodeError α
  | some a => .ok a
  | none => .error (.missing k field)

/-- The order an order form describes, its fields checked in order. -/
def OrderForm.toOrder (w : OrderForm) : Except DecodeError Order := do
  let id ← present .placeOrder "order.id" w.id
  let user ← required .placeOrder "order.user_id" w.userId
  let price ← present .placeOrder "order.price" w.price
  let quantity ← present .placeOrder "order.quantity" w.quantity
  pure ⟨id, user, Side.ofName w.side, price, quantity, w.filled⟩

/-- The command an envelope holds, the fields of its kind checked in order. -/
def Envelope.toCommand (e : Envelope) : Except DecodeError Command :=
  match Kind.ofTag? e.tag with
  | some .placeOrder => do
    let market ← required .placeOrder "market" e.market
    let base ← required .placeOrder "base_asset" e.baseAsset
    let form ← present .placeOrder "order" e.order
    let order ← form.toOrder
    match order.validate with
    | some v => throw (.invalid .placeOrder "order" v)
    | none => pure (.placeOrder e.requestId market base order)
  | some .cancelOrder => do
    let market ← required .cancelOrder "market" e.market
    let id ← present .cancelOrder "orderId" e.orderId
    pure (.cancelOrder e.requestId market id)
  | some .getDepth => do
    let market ← required .getDepth "market" e.market
    pure (.getDepth e.requestId market)
  | some .addBalance => do
    let user ← required .addBalance "userId" e.userId
    let asset ← required .addBalance "asset" e.asset
    let amount ← present .addBalance "amount" e.amount
    pure (.addBalance e.requestId user asset amount)
  | none => .error (.unknownKind e.tag)

/-- Reads a message into a command. -/
def Command.decode (data : String) : Except DecodeError Command :=
  match readText "envelope" "command.envelope" Envelope.fields false Envelope.empty data with
  | .error e => .error (.malformed e)
  | .ok env => env.toCommand

/-- A command as a message. -/
def Command.toJson (c : Command) : Value :=
  let head : List (String × Value) :=
    ("type", .str c.kind.tag) ::
      (if c.requestId = "" then [] else [("request_id", .str c.requestId)])
  .obj <| head ++ match c with
    | .placeOrder _ m b o =>
      [("market", .str m), ("base_asset", .str b),
       ("order", .obj [("id", .ofWord o.id), ("user_id", .str o.userId), ("side", .str o.side.name),
         ("price", .ofWord o.price), ("quantity", .ofWord o.quantity),
         ("filled", .ofWord o.filled)])]
    | .cancelOrder _ m id => [("market", .str m), ("orderId", .ofWord id)]
    | .getDepth _ m => [("market", .str m)]
    | .addBalance _ u a n => [("userId", .str u), ("asset", .str a), ("amount", .ofWord n)]

end Exchange
