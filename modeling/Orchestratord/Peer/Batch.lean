import Orchestratord.Foundation.Runs
import Orchestratord.Peer.Signature

/-! # Batches of frames

One request is one batch. The endpoint reads the body to its end and serves the frames on the way,
with their replies going into the queue of the connection; then it closes the queue, and only then
the response replays it. -/

namespace Orchestratord.Peer.Batch

open Foundation

/-! ## The connection -/

/-- The cap of the queue; zero would be no cap. -/
def outboundQueueMaxsize : Nat := 256

/-- The server's side of one request. The queue holds the replies and, at its end, nothing. -/
structure PeerServerConnection where
  outbound : List (Option PeerFrame) := []
  inFlight : Nat := 0
  closed : Bool := false

variable (connection : PeerServerConnection) (maxsize : Nat)

namespace PeerServerConnection

def entered : PeerServerConnection :=
  { connection with inFlight := connection.inFlight + 1 }

def released : PeerServerConnection :=
  { connection with inFlight := connection.inFlight - 1 }

def isFull (connection : PeerServerConnection) : Bool :=
  maxsize ≠ 0 && maxsize ≤ connection.outbound.length

/-- Put one item into the queue; nothing if the caller has to wait for room. -/
def put (item : Option PeerFrame) (connection : PeerServerConnection) :
    Option PeerServerConnection :=
  if connection.isFull maxsize then none
  else some { connection with outbound := connection.outbound ++ [item] }

def sendFrame (frame : PeerFrame) (connection : PeerServerConnection) :
    Option PeerServerConnection :=
  if connection.closed then some connection else connection.put maxsize (some frame)

end PeerServerConnection

/-! ## Serving a frame -/

/-- What the endpoint is built from: the row of the peer that has been authenticated, its token,
and what it calls. The world is everything that the calls can see and change. -/
structure Endpoint (σ : Type) where
  rt : Runtime
  maxsize : Nat := outboundQueueMaxsize
  orchId : String
  capabilities : List Json := []
  /-- The bearer token; empty if it cannot be read from the header. -/
  token : String
  uuid : σ → String
  time : σ → ℚ
  nonce : σ → String
  /-- The trace id of a frame, or a new one. -/
  traceId : σ → PeerFrame → String
  verify : σ → PeerFrame → Except AuthError Unit × σ
  /-- The seconds to wait, if the peer is over its limit. -/
  tryAcquire : σ → Option ℚ × σ
  /-- The result of an invocation, unless it ends in an exception. -/
  dispatchInvokeFrame : σ → PeerFrame → Option PeerFrame × σ
  /-- A topic that is no text ends in an exception. -/
  addPeerTopic : σ → Json → Option σ
  removePeerTopic : σ → Json → Option σ
  clearPeerTopics : σ → σ

/-- What comes of a frame: nothing more, a reply, or the end of the reading. The reply to an
invocation that was dispatched counts as in flight until it is queued. -/
inductive Handled where
  | next
  | reply (frame : PeerFrame) (counted : Bool)
  | stop

variable {σ : Type} (e : Endpoint σ) (world : σ)

def welcome : PeerFrame :=
  { type := .welcome, frameId := e.uuid world, orchId := .str e.orchId
    capabilities := e.capabilities, timestamp := e.time world }

def pong : PeerFrame :=
  { type := .pong, frameId := e.uuid world, orchId := .str e.orchId, timestamp := e.time world }

/-- The result for a peer over its limit. -/
def rateLimited (retryAfter : ℚ) (frame : PeerFrame) : PeerFrame :=
  { type := .result, frameId := e.uuid world, orchId := .str e.orchId
    requestId := if frame.requestId.truthy then frame.requestId else .str ""
    status := .int 429
    body := some [("error", .str "peer rate limit exceeded"), ("retry_after", .int ⌈retryAfter⌉)]
    msgId := if frame.msgId.truthy then frame.msgId else .str (e.uuid world)
    timestamp := e.time world }

def handleFrame (frame : PeerFrame) : Handled × σ :=
  match frame.type with
  | .hello =>
    if e.token = "" then (.stop, world)
    else match e.verify world frame with
      | (.error _, world) => (.stop, world)
      | (.ok (), world) =>
        match sign e.rt e.token (e.nonce world) (welcome e world) with
        | .ok reply => (.reply reply false, world)
        | .error _ => (.stop, world)
  | .invoke =>
    match e.tryAcquire world with
    | (some retryAfter, world) => (.reply (rateLimited e world retryAfter frame) false, world)
    | (none, world) =>
      let traceId := e.traceId world frame
      match e.dispatchInvokeFrame world frame with
      | (some result, world) =>
        (.reply { result with headers := some [("x-trace-id", .str traceId)] } true, world)
      | (none, world) => (.stop, world)
  | .subscribe =>
    if frame.topic.truthy then
      match e.addPeerTopic world frame.topic with
      | some world => (.next, world)
      | none => (.stop, world)
    else (.next, world)
  | .unsubscribe =>
    if frame.topic.truthy then
      match e.removePeerTopic world frame.topic with
      | some world => (.next, world)
      | none => (.stop, world)
    else (.next, world)
  | .ping => (.reply (pong e world) false, world)
  | .goodbye => (.stop, e.clearPeerTopics world)
  | .revoke => (.stop, e.clearPeerTopics world)
  | _ => (.next, world)

/-! ## The reader -/

/-- How far the reader has got, with the frames it has handled. -/
structure Reading (σ : Type) where
  world : σ
  connection : PeerServerConnection := {}
  handled : List PeerFrame := []

/-- The reader goes on, has returned, or waits for room in the queue. -/
inductive Outcome where
  | more
  | stopped
  | waits (reply : PeerFrame) (counted : Bool)

variable (r : Reading σ)

/-- Queue the reply to a frame. -/
def queueReply (reply : PeerFrame) (counted : Bool) : Reading σ × Outcome :=
  match r.connection.sendFrame e.maxsize reply with
  | some connection =>
    ({ r with connection := if counted then connection.released else connection }, .more)
  | none => (r, .waits reply counted)

def serveFrame (frame : PeerFrame) : Reading σ × Outcome :=
  match handleFrame e r.world frame with
  | (.next, world) => ({ r with world, handled := r.handled ++ [frame] }, .more)
  | (.stop, world) => ({ r with world, handled := r.handled ++ [frame] }, .stopped)
  | (.reply reply counted, world) =>
    queueReply e { world, handled := r.handled ++ [frame]
                   connection := if counted then r.connection.entered else r.connection }
      reply counted

def isBlankLine (line : Bytes) : Bool := line.all fun byte => byte = 32 || (9 ≤ byte && byte ≤ 13)

/-- A line that is no frame ends the reading. -/
def readLine (line : Bytes) : Reading σ × Outcome :=
  if isBlankLine line then (r, .more)
  else match PeerFrame.decode e.rt (e.uuid r.world) (e.time r.world) line with
    | .ok frame => serveFrame e r frame
    | .error _ => (r, .stopped)

/-- Go through a list for as long as there is more to read. -/
def readAll {α : Type} (read : Reading σ → α → Reading σ × Outcome) (r : Reading σ) :
    List α → Reading σ × Outcome
  | [] => (r, .more)
  | item :: rest =>
    match read r item with
    | (r, .more) => readAll read r rest
    | (r, .stopped) => (r, .stopped)
    | (r, .waits reply counted) => (r, .waits reply counted)

/-- Each chunk of the body is cut into lines by itself. -/
def reader (chunks : List Bytes) : Reading σ × Outcome :=
  readAll (fun r chunk => readAll (readLine e) r (splitLines chunk)) r chunks

/-! ## The request -/

/-- Where a request is: in the loops of the reader, in a call that waits for room, in closing the
queue, in the response. -/
inductive Phase where
  | reading (lines chunks : List Bytes)
  | sending (reply : PeerFrame) (counted : Bool) (lines chunks : List Bytes)
  | closing
  | closeWaiting
  | writing
  | done

structure Request (σ : Type) where
  reading : Reading σ
  phase : Phase
  written : List PeerFrame := []

namespace Request

variable {e}

/-- A request at its start, with the chunks that its body will come in. -/
def start (world : σ) (chunks : List Bytes) : Request σ :=
  { reading := { world }, phase := .reading [] chunks }

variable (e) (q : Request σ)

/-- The next step of the request; nothing if it is over or waits. Nothing takes from the queue
before the response has started. -/
def step : Option (Request σ) :=
  match q.phase with
  | .reading [] [] => some { q with phase := .closing }
  | .reading [] (chunk :: chunks) => some { q with phase := .reading (splitLines chunk) chunks }
  | .reading (line :: lines) chunks =>
    match readLine e q.reading line with
    | (reading, .more) => some { q with reading, phase := .reading lines chunks }
    | (reading, .stopped) => some { q with reading, phase := .closing }
    | (reading, .waits reply counted) =>
      some { q with reading, phase := .sending reply counted lines chunks }
  | .sending reply counted lines chunks =>
    match queueReply e q.reading reply counted with
    | (reading, .more) => some { q with reading, phase := .reading lines chunks }
    | _ => none
  | .closing =>
    if q.reading.connection.closed then some { q with phase := .writing }
    else
      let connection := { q.reading.connection with closed := true }
      match connection.put e.maxsize none with
      | some connection =>
        some { q with reading := { q.reading with connection }, phase := .writing }
      | none => some { q with reading := { q.reading with connection }, phase := .closeWaiting }
  | .closeWaiting =>
    match q.reading.connection.put e.maxsize none with
    | some connection => some { q with reading := { q.reading with connection }, phase := .writing }
    | none => none
  | .writing =>
    match q.reading.connection.outbound with
    | [] => none
    | item :: outbound =>
      let reading := { q.reading with connection := { q.reading.connection with outbound } }
      match item with
      | some frame => some { q with reading, written := q.written ++ [frame] }
      | none => some { q with reading, phase := .done }
  | .done => none

/-- The request comes to its end. -/
def Completes : Prop := ∃ q', Reaches (step e) q q' ∧ q'.phase = .done

end Request

end Orchestratord.Peer.Batch
