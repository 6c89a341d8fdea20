import Exchange.Json.Decode
import Exchange.Wire
/-!
# The trade stream hub

The hub keeps the subscribers of the trade stream and the channels each one
listens to. A market's trades travel on the channel `trades:<market>`.

* **Control messages.** A subscriber sends `{"op": ..., "channels": [...]}`.
  Keys match loosely (as record fields do everywhere), unknown keys are
  ignored, and a message that is no JSON document or does not fit is the op
  `invalid`; `null` is the op `""`. A repeated `channels` key is read over the
  list the earlier one left (`Json.listSlot`). `subscribe` adds each listed channel and
  `unsubscribe` removes each, both answering with the list as sent; any other op
  answers `unknown op: <op>`.
* **Fan-out.** A published batch goes, as one event, to every subscriber of its
  channel. An empty batch goes nowhere.
* **Queues.** Each answer and each batch is put on the subscriber's outgoing
  queue; when that queue is full the subscriber is dropped instead. Dropping a
  subscriber (also when it leaves) closes its queue.
* **Stopping.** Cancelling the hub drops every subscriber; a stopped hub takes
  nothing more, not even new subscribers.

The hub is a step function over its inputs (`Stream.Hub.step`); what it does
to the subscribers' queues comes out as a list of effects.

Key definitions: `Stream.Request`, `Stream.Event`, `Stream.Input`,
`Stream.Effect`, `Stream.Hub`, `Stream.Hub.step`.
-/

namespace Exchange.Stream

open Json

/-- The channel that carries a market's trades. -/
def tradesChannel (market : String) : String := "trades:" ++ market

/-- A control message from a subscriber. -/
structure Request where
  op : String
  channels : List String
  deriving DecidableEq

/-- A control message as it is read: the channels with their storage. -/
structure RequestForm where
  op : String
  channels : Stored String

/-- The fields of a control message. -/
def RequestForm.fields : List (RecordField RequestForm) :=
  [.on "op" (textSlot "string") (·.op) fun r x => { r with op := x },
   .on "channels" (listSlot "" "[]string" (textSlot "string")) (·.channels)
     fun r x => { r with channels := x }]

/-- Reads a control message; one that cannot be read is the op `invalid`. -/
def Request.read (message : String) : Request :=
  match readText "Request" "stream.Request" RequestForm.fields false ⟨"", .empty⟩ message with
  | .ok r => ⟨r.op, r.channels.items⟩
  | .error _ => ⟨"invalid", []⟩

/-- What the hub sends a subscriber. -/
inductive Event where
  | trades (channel : String) (batch : List Trade)
  | subscribed (channels : List String)
  | unsubscribed (channels : List String)
  | failed (message : String)
  deriving DecidableEq

/-- The channels member of an event, left out when there are none. -/
def channelsMember (chs : List String) : List (String × Value) :=
  if chs.isEmpty then [] else [("channels", .ofStrings chs)]

/-- The wire form of an event. -/
def Event.toJson : Event → Value
  | .trades ch batch =>
    .obj [("type", .str "trades"), ("channel", .str ch), ("trades", Trade.listToJson batch)]
  | .subscribed chs => .obj (("type", .str "subscribed") :: channelsMember chs)
  | .unsubscribed chs => .obj (("type", .str "unsubscribed") :: channelsMember chs)
  | .failed m => .obj [("type", .str "error"), ("error", .str m)]

/-- What the hub's loop takes, one at a time: a subscriber joining or
leaving, a subscriber's control message, a published batch of a market's
trades, or the end of the hub. Subscribers are named by numbers. -/
inductive Input where
  | register (client : Nat)
  | unregister (client : Nat)
  | request (client : Nat) (r : Request)
  | publish (market : String) (batch : List Trade)
  | cancel
  deriving DecidableEq

/-- What the hub does to a subscriber's outgoing queue: puts an event on it,
or closes it. -/
inductive Effect where
  | deliver (client : Nat) (e : Event)
  | close (client : Nat)
  deriving DecidableEq

/-- The subscribers in the order they joined, each with its channels, and
whether the hub runs. -/
structure Hub where
  running : Bool
  clients : List (Nat × List String)
  deriving DecidableEq

namespace Hub

/-- A running hub with no subscribers. -/
def start : Hub := ⟨true, []⟩

/-- Whether a number names a subscriber. -/
def isClient (h : Hub) (c : Nat) : Bool := h.clients.any (·.1 == c)

/-- Drops a subscriber: it leaves the hub and its queue is closed. -/
def drop (h : Hub) (c : Nat) : List Effect × Hub :=
  ([.close c], { h with clients := h.clients.filter (·.1 != c) })

/-- Puts an event on a subscriber's queue; a full queue (`full c`) drops the
subscriber instead. -/
def deliver (h : Hub) (full : Nat → Bool) (c : Nat) (e : Event) : List Effect × Hub :=
  if full c then h.drop c else ([.deliver c e], h)

/-- Changes a subscriber's channels. -/
def updateChannels (h : Hub) (c : Nat) (f : List String → List String) : Hub :=
  { h with clients := h.clients.map fun x => if x.1 == c then (x.1, f x.2) else x }

/-- Adds the channels a subscriber does not have yet. -/
def addChannels (current add : List String) : List String :=
  add.foldl (fun acc ch => if acc.contains ch then acc else acc ++ [ch]) current

/-- The event a control message answers with, and the hub after it. -/
def answer (h : Hub) (c : Nat) (r : Request) : Event × Hub :=
  match r.op with
  | "subscribe" => (.subscribed r.channels, h.updateChannels c (addChannels · r.channels))
  | "unsubscribe" =>
    (.unsubscribed r.channels, h.updateChannels c (·.filter (!r.channels.contains ·)))
  | op => (.failed ("unknown op: " ++ op), h)

/-- Delivers one event to each of a list of subscribers in turn. -/
def deliverAll (full : Nat → Bool) (e : Event) : List Nat → Hub → List Effect × Hub
  | [], h => ([], h)
  | c :: cs, h =>
    let (fx, h') := h.deliver full c e
    let (rest, h'') := deliverAll full e cs h'
    (fx ++ rest, h'')

/-- One turn of the hub's loop; `full c` tells whether subscriber `c`'s queue
is full at this turn. A stopped hub takes nothing. -/
def step (h : Hub) (full : Nat → Bool) : Input → List Effect × Hub
  | .register c =>
    if !h.running then ([], h)
    else ([], { h with clients := (h.clients.filter (·.1 != c)) ++ [(c, [])] })
  | .unregister c => if h.running && h.isClient c then h.drop c else ([], h)
  | .request c r =>
    if h.running && h.isClient c then
      let (e, h') := h.answer c r
      h'.deliver full c e
    else ([], h)
  | .publish market batch =>
    if !h.running || batch.isEmpty then ([], h)
    else
      let ch := tradesChannel market
      deliverAll full (.trades ch batch) ((h.clients.filter (·.2.contains ch)).map (·.1)) h
  | .cancel =>
    if !h.running then ([], h)
    else (h.clients.map fun c => .close c.1, { running := false, clients := [] })

theorem step_stopped (h : Hub) (full : Nat → Bool) (i : Input) (hs : h.running = false) :
    h.step full i = ([], h) := by
  cases i <;> simp [step, hs]

theorem step_cancel (h : Hub) (full : Nat → Bool) (hs : h.running = true) :
    h.step full .cancel = (h.clients.map fun c => .close c.1, ⟨false, []⟩) := by
  simp [step, hs]

end Hub

end Exchange.Stream
