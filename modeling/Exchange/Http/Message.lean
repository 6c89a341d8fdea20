import Exchange.Json.Stream
import Exchange.Json.Decode
import Exchange.Command.Wire
import Exchange.Engine
/-!
# Requests, responses and request bodies

A request carries a method, a target, its content type (empty when none), the
request id it was given, and a body. A response carries a status, a content
type and a payload: a JSON value, or plain text.

Failures answer with a JSON object `{"error": code, "message": text}`. The
engine's refusals map to statuses: an invalid order is 400, an unknown market
404, unfunded escrow 409, an amount past 2^64 - 1 422, anything else 500.

**Request bodies** hold exactly one JSON object, read strictly: a key that
names no field is refused. The body is read as a stream: the first value is
read off the front (a body of blanks only reads as `EOF`, a cut-off value as
`unexpected EOF`), then fitted to the record, and then only blanks may follow.

Key definitions: `Http.Request`, `Http.Response`, `Http.Response.problem`,
`Http.Response.ofEngineError`, `Http.BodyError`, `Http.readBody`.
-/

namespace Exchange.Http

open Json

/-- A request as the router sees it. -/
structure Request where
  method : String
  target : String
  contentType : String
  requestId : String
  body : String

/-- What a response carries. -/
inductive Payload where
  | json (v : Value)
  | text (s : String)

/-- A response. -/
structure Response where
  status : Nat
  contentType : String
  payload : Payload

namespace Response

/-- A JSON response. -/
def json (status : Nat) (v : Value) : Response := ⟨status, "application/json", .json v⟩

/-- A plain-text response. -/
def text (status : Nat) (s : String) : Response :=
  ⟨status, "text/plain; charset=utf-8", .text s⟩

/-- A failure: its code and message as a JSON object. -/
def problem (status : Nat) (code message : String) : Response :=
  json status (.obj [("error", .str code), ("message", .str message)])

/-- The answer to a path that matches no route. -/
def notFound : Response := text 404 "404 page not found\n"

/-- The answer to a method the path does not take: no body. -/
def methodNotAllowed : Response := ⟨405, "", .text ""⟩

/-- A refusal of the request's input. -/
def invalid (message : String) : Response := problem 400 "validation_error" message

/-- The answer to an engine's refusal. -/
def ofEngineError : EngineError → Response
  | .invalid e => invalid e.message
  | .marketNotFound => problem 404 "market_not_found" "Market not found"
  | .insufficientFunds =>
    problem 409 "insufficient_funds" "Insufficient available balance to escrow the order"
  | .amountOverflow => problem 422 "amount_overflow" "Amount exceeds the representable range"
  | .marketExists => problem 500 "internal_error" "An unexpected error occurred"

/-- The answer to a command that could not be formed. -/
def ofDecodeError (e : DecodeError) : Response := problem 400 "invalid_request" e.message

end Response

/-- Why a request body could not be read. -/
inductive BodyError where
  /-- No value could be read off the front of the body. -/
  | unreadable (e : StreamError)
  /-- The value does not fit the record. -/
  | fit (e : FitError)
  /-- Something other than blanks follows the value. -/
  | trailing
  deriving DecidableEq

/-- The message of a body error. -/
def BodyError.message : BodyError → String
  | .unreadable e => "Request body must be valid JSON: " ++ e.message
  | .fit e => "Request body must be valid JSON: " ++ e.message
  | .trailing => "Request body must contain a single JSON object"

/-- Reads a body strictly into a record named `record` of the type `target`,
starting from `init`. -/
def readBody {α : Type} (record target : String) (fields : List (RecordField α)) (init : α)
    (body : String) : Except BodyError α :=
  match readFront body.toList with
  | .error e => .error (.unreadable e)
  | .ok (v, rest) =>
    let r := readRecord record target fields true init v
    match r.error with
    | some e => .error (.fit e)
    | none => if rest.all isBlank then .ok r.value else .error .trailing

/-- The body of a credit: the user, the asset and the amount, each of which
may be missing. -/
structure CreditForm where
  userId : String
  asset : String
  amount : Option UInt64

/-- The fields of a credit's body. -/
def CreditForm.fields : List (RecordField CreditForm) :=
  [.on "user_id" (textSlot "string") (·.userId) fun f x => { f with userId := x },
   .on "asset" (textSlot "string") (·.asset) fun f x => { f with asset := x },
   .on "amount" optionalWord (·.amount) fun f x => { f with amount := x }]

/-- Reads the body of a credit. -/
def CreditForm.read (body : String) : Except BodyError CreditForm :=
  readBody "creditRequest" "handler.creditRequest" CreditForm.fields ⟨"", "", none⟩ body

/-- The body of a placement: the request id, the base asset and the order,
each of which may be missing. -/
structure PlaceForm where
  requestId : String
  baseAsset : String
  order : Option OrderForm

/-- The fields of a placement's body; the order is read strictly too. -/
def PlaceForm.fields : List (RecordField PlaceForm) :=
  [.on "request_id" (textSlot "string") (·.requestId) fun f x => { f with requestId := x },
   .on "base_asset" (textSlot "string") (·.baseAsset) fun f x => { f with baseAsset := x },
   .on "order" (OrderForm.slot true) (·.order) fun f x => { f with order := x }]

/-- Reads the body of a placement. -/
def PlaceForm.read (body : String) : Except BodyError PlaceForm :=
  readBody "placeOrderRequest" "handler.placeOrderRequest" PlaceForm.fields ⟨"", "", none⟩ body

end Exchange.Http
