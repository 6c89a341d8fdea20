import Exchange.Service
/-!
# The queue consumer

The consumer takes command messages from a queue one at a time: it fetches a
message, handles it, and commits its offset. Handling decodes the message and
dispatches the command; the result, or the failure as a result, is written to
the result queue keyed by the command's market. A message of an unknown kind
is skipped: nothing is written, and it is still committed. Without a result
queue nothing is written.

A failing fetch, write or commit stops the consumer with an error:
`fetch command: …`, `publish result <request id>: …`, `commit offset <n>: …`.
A message whose result could not be written is not committed.

A run takes the messages the reader holds one after another, from an offset,
and stops at the first failure; once they are all taken it waits until the
consumer is cancelled, and ends without an error.

Key definitions: `Transport`, `Consumed`, `Effect`, `Service.handleMessage`,
`Service.consume`, `Service.run`.
-/

namespace Exchange

/-- How the queues behave for one message: each failure, when present, with
its reason. -/
structure Transport where
  fetchFailure : Option String
  writeFailure : Option String
  commitFailure : Option String
  hasWriter : Bool

/-- What handling one message did: the results written (key and result), whether
the offset was committed, the error that stopped the consumer, and the trade
batches published. -/
structure Consumed where
  written : List (String × Result)
  committed : Bool
  stopped : Option String
  published : List (String × List Trade)

/-- What the consumer does to the queues: write a result under a key, or
commit an offset. -/
inductive Effect where
  | wrote (key : String) (r : Result)
  | committed (offset : Nat)

/-- What handling the message at an offset did to the queues, in order: the
results written, then the commit. -/
def Consumed.effects (c : Consumed) (offset : Nat) : List Effect :=
  c.written.map (fun w => .wrote w.1 w.2) ++ if c.committed then [.committed offset] else []

namespace Service

/-- Writes a result to the result queue. -/
def publishResult (t : Transport) (r : Result) : Except String (List (String × Result)) :=
  if !t.hasWriter then .ok []
  else match t.writeFailure with
    | some why => .error ("publish result " ++ r.requestId ++ ": " ++ why)
    | none => .ok [(r.market, r)]

/-- Commits after a handled message. -/
def commit (t : Transport) (offset : Nat) (written : List (String × Result))
    (pub : List (String × List Trade)) : Consumed :=
  match t.commitFailure with
  | some why => ⟨written, false, some ("commit offset " ++ toString offset ++ ": " ++ why), pub⟩
  | none => ⟨written, true, none, pub⟩

/-- Decodes a message and dispatches its command: the result to write (none
for a message of an unknown kind), the trade batches published, and the
service after it. A message that does not decode, or a command the engine
refuses, is answered with the failure as a result. -/
def handleMessage (s : Service) (now fresh : String) (message : String) :
    Option Result × List (String × List Trade) × Service :=
  match Command.decode message with
  | .error (.unknownKind _) => (none, [], s)
  | .error e => (some (Result.failed none fresh (.decode e)), [], s)
  | .ok c =>
    let d := s.dispatch now fresh c
    match d.1.outcome with
    | .ok r => (some r, d.1.published, d.2)
    | .error e => (some (Result.failed (some c) fresh (.engine e)), d.1.published, d.2)

/-- Fetches, handles and commits one message at an offset. `now` is the time
written on trades, `fresh` the request id of a result that has none. -/
def consume (s : Service) (now fresh : String) (t : Transport) (offset : Nat) (message : String) :
    Consumed × Service :=
  match t.fetchFailure with
  | some why => (⟨[], false, some ("fetch command: " ++ why), []⟩, s)
  | none =>
    let h := s.handleMessage now fresh message
    match h.1 with
    | none => (commit t offset [] h.2.1, h.2.2)
    | some r =>
      match publishResult t r with
      | .error why => (⟨[], false, some why, h.2.1⟩, h.2.2)
      | .ok written => (commit t offset written h.2.1, h.2.2)

/-- The consumer's run over the messages the reader holds, from an offset:
each message is fetched, handled and committed in turn, until a failure stops
the run with its error. Once the messages are taken, the fetch waits until the
consumer is cancelled, and the run ends without an error. The message at
offset `i` is handled at the time `now i`, with the request id `fresh i`, and
over the queues `t i`. -/
def run (s : Service) (now fresh : Nat → String) (t : Nat → Transport) :
    Nat → List String → List Effect × Option String × Service
  | _, [] => ([], none, s)
  | offset, m :: ms =>
    let c := s.consume (now offset) (fresh offset) (t offset) offset m
    match c.1.stopped with
    | some why => (c.1.effects offset, some why, c.2)
    | none =>
      let r := c.2.run now fresh t (offset + 1) ms
      (c.1.effects offset ++ r.1, r.2)

end Service

end Exchange
