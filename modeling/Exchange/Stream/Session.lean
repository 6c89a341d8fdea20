import Exchange.Server
/-!
# Subscriber connections

A session holds the hub and named connections to it, as their far ends see
them: each has the number the hub knows it by, the frames sent to it and not
yet read, and, once it is closed, the close it ended with.

* **Connecting** to a running hub joins it. A stopped hub takes the connection
  and drops it at once, without a close frame: it reads as code 1006,
  `unexpected EOF`. A name used again names the new connection; the old one
  stays with the hub, unread.
* **Reading** takes the oldest frame sent. A close frame closes the connection,
  and a closed connection reads its close again; an open one with nothing sent
  reads nothing.
* **Sending** a message of more than 4096 bytes closes the connection with code
  1009, and it leaves the hub. Any other message goes to the hub as a control
  message, and the answer is read.
* **Closing** leaves the hub and forgets the name.
* **Stopping** the hub closes every subscriber's queue, which the far end reads
  as code 1005 with no text; each named connection then reads once.
* **Publishing** a batch puts its event on every subscriber of its channel;
  the events each open connection received are read at once.

No subscriber's queue is ever full here: the hub's `full` is always false.
Connecting and publishing are what the server drives (`Stream.Session.sockets`).

Key definitions: `Stream.Frame`, `Stream.Link`, `Stream.Reading`,
`Stream.Session`, `Stream.Session.connect`, `Stream.Session.send`,
`Stream.Session.stop`, `Stream.Session.publish`, `Stream.Session.sockets`.
-/

namespace Exchange.Stream

/-- The largest message a subscriber may send, in bytes. -/
def maxMessageSize : Nat := 4096

/-- What a connection reads: an event, or a close frame with its code and
text. -/
inductive Frame where
  | event (e : Event)
  | close (code : Nat) (reason : String)
  deriving DecidableEq

/-- The close of a connection dropped without a close frame. -/
def dropped : Frame := .close 1006 "unexpected EOF"

/-- The close a closed queue sends: no status. -/
def queueClosed : Frame := .close 1005 ""

/-- The close of a connection that sent a message too long. -/
def tooBig : Frame := .close 1009 ""

/-- A connection as its far end sees it. -/
structure Link where
  name : String
  client : Nat
  inbox : List Frame
  closed : Option Frame
  deriving DecidableEq

/-- What one read gives: a frame, or nothing when none was sent. -/
inductive Reading where
  | frame (f : Frame)
  | silence
  deriving DecidableEq

/-- The hub, the named connections, and the number the next connection gets. -/
structure Session where
  hub : Hub
  links : List Link
  nextClient : Nat
  deriving DecidableEq

namespace Link

/-- Reads one frame. -/
def read (l : Link) : Reading × Link :=
  match l.closed, l.inbox with
  | some f, _ => (.frame f, l)
  | none, [] => (.silence, l)
  | none, f :: rest =>
    match f with
    | .close _ _ => (.frame f, { l with inbox := rest, closed := some f })
    | .event _ => (.frame f, { l with inbox := rest })

/-- Whether a connection is still open. -/
def isOpen (l : Link) : Bool := l.closed.isNone

/-- Takes the events waiting on an open connection, up to its first close
frame. -/
def takeEvents (l : Link) : List Event × Link :=
  if !l.isOpen then ([], l)
  else
    let evs := l.inbox.takeWhile fun f => match f with
      | .event _ => true
      | .close _ _ => false
    (evs.filterMap fun f => match f with
      | .event e => some e
      | .close _ _ => none, { l with inbox := l.inbox.drop evs.length })

/-- What an effect of the hub sends to this connection. -/
def receive (l : Link) : Effect → Link
  | .deliver c e =>
    if c = l.client && l.isOpen then { l with inbox := l.inbox ++ [.event e] } else l
  | .close c =>
    if c = l.client && l.isOpen then { l with inbox := l.inbox ++ [queueClosed] } else l

end Link

namespace Session

/-- A session with a running hub and no connections. -/
def start : Session := ⟨.start, [], 0⟩

/-- The connection of a name. -/
def link? (s : Session) (name : String) : Option Link := s.links.find? (·.name == name)

/-- Writes a connection back, in place of the one of its name. -/
def put (s : Session) (l : Link) : Session :=
  if s.links.any (·.name == l.name) then
    { s with links := s.links.map fun x => if x.name == l.name then l else x }
  else { s with links := s.links ++ [l] }

/-- Gives the hub one input; its effects reach the connections. -/
def feed (s : Session) (i : Input) : Session :=
  let (fx, hub) := s.hub.step (fun _ => false) i
  { s with hub := hub, links := s.links.map fun l => fx.foldl Link.receive l }

/-- Opens a connection under a name. -/
def connect (s : Session) (name : String) : Session :=
  let c := s.nextClient
  let s := { s with nextClient := c + 1 }
  if s.hub.running then (s.put ⟨name, c, [], none⟩).feed (.register c)
  else s.put ⟨name, c, [], some dropped⟩

/-- Reads one frame of a named connection; none for an unknown name. -/
def read (s : Session) (name : String) : Option Reading × Session :=
  match s.link? name with
  | none => (none, s)
  | some l => let (r, l') := l.read; (some r, s.put l')

/-- Sends a message on a named connection and reads the answer; none for an
unknown name. A closed connection reads its close again. -/
def send (s : Session) (name : String) (message : String) : Option Reading × Session :=
  match s.link? name with
  | none => (none, s)
  | some l =>
    if !l.isOpen then s.read name
    else if message.utf8ByteSize > maxMessageSize then
      ((s.put { l with inbox := l.inbox ++ [tooBig] }).feed (.unregister l.client)).read name
    else (s.feed (.request l.client (Request.read message))).read name

/-- Closes a named connection: it leaves the hub and the name is forgotten. -/
def close (s : Session) (name : String) : Session :=
  match s.link? name with
  | none => s
  | some l => { s with links := s.links.filter (·.name != name) }.feed (.unregister l.client)

/-- Stops the hub; every named connection reads once. -/
def stop (s : Session) : List (String × Reading) × Session :=
  let s := s.feed .cancel
  let read := s.links.map Link.read
  (read.map fun r => (r.2.name, r.1), { s with links := read.map (·.2) })

/-- Publishes a market's batch and reads the deliveries: the events each open
named connection received, for those that received any. -/
def publish (s : Session) (market : String) (batch : List Trade) :
    List (String × List Event) × Session :=
  let s := s.feed (.publish market batch)
  let taken := s.links.map Link.takeEvents
  ((taken.filter (!·.1.isEmpty)).map fun t => (t.2.name, t.1),
    { s with links := taken.map (·.2) })

/-- The named connections as the server's sockets. -/
def sockets : Sockets Session := ⟨connect, publish⟩

end Session

end Exchange.Stream
