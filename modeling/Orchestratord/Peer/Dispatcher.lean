import Orchestratord.Foundation.Runs

/-! # Inbound peer messages

The dispatcher of inbound peer INVOKEs with its result cache, ordering table and turn
counter, and the two routes that feed it: frames of the batch stream and REST calls.

Handlers are awaited, so a delivery takes two steps: it arrives, and later its handler
ends. Everything between two awaits is one step of the event loop, and any two
deliveries can interleave at the awaits. -/

namespace Orchestratord.Peer

open Foundation Function

abbrev OrchId := String

/-- A message id sent by the peer, or one drawn here for a message without. -/
inductive MsgId where
  | given (id : String)
  | fresh (n : Nat)
  deriving DecidableEq, Repr

abbrev Key := OrchId × MsgId

/-- A cached result: a handler's body, or the envelope of an error. -/
inductive Stored (V : Type) where
  | value (v : V)
  | envelope (status : Nat) (error : String)
  deriving DecidableEq, Repr

structure PeerConfig where
  dedupWindowSeconds : Nat := 30
  autoSchedule : Bool := false
  maxConcurrentPeerTurns : Nat := 1

structure Dispatcher (V : Type) where
  /-- Result and time of expiry. -/
  results : Key → Option (Stored V × Nat) := fun _ => none
  /-- Last accepted sequence number of a session of a peer. -/
  ordering : OrchId × String → Option Int := fun _ => none
  activeTurns : Nat := 0

namespace Dispatcher

variable {V : Type}

/-! ## The dedup window -/

variable (d : Dispatcher V) (now : Nat) (key : Key)

def cachedResult : Option (Stored V) :=
  match d.results key with
  | none => none
  | some (result, expiresAt) => if expiresAt ≤ now then none else some result

/-- Looking up an expired entry removes it. -/
def dropExpired : Dispatcher V :=
  if (d.cachedResult now key).isSome then d
  else { d with results := update d.results key none }

def prune : Dispatcher V :=
  { d with results := fun key => (d.results key).filter fun entry => now < entry.2 }

variable (config : PeerConfig) (now : Nat)

def rememberResult (key : Key) (result : Stored V) : Dispatcher V :=
  prune { d with
    results := update d.results key (some (result, now + config.dedupWindowSeconds)) } now

/-! ## Ordering within a session -/

/-- Check a sequence number against the session's chain. An absent number is in order,
one that is no integer is not; a gap or a repetition moves the chain to the larger one. -/
def checkOrdering (orchId : OrchId) (sessionId : String) : Option (Option Int) → Bool × Dispatcher V
  | none => (true, d)
  | some none => (false, d)
  | some (some seq) =>
    let key := (orchId, sessionId)
    match d.ordering key with
    | none => (true, { d with ordering := update d.ordering key (some seq) })
    | some last =>
      if seq ≠ last + 1 then
        (false, { d with ordering := update d.ordering key (some (max seq last)) })
      else (true, { d with ordering := update d.ordering key (some seq) })

/-! ## Scheduling turns -/

def scheduleTurn : Bool × Dispatcher V :=
  if max 1 config.maxConcurrentPeerTurns ≤ d.activeTurns then (false, d)
  else (true, { d with activeTurns := d.activeTurns + 1 })

/-- What a dispatch does once the operation has returned: remember the result, then
schedule a turn if that is switched on. -/
def completeDispatch (key : Key) (result : Stored V) : Bool × Dispatcher V :=
  let d := d.rememberResult config now key result
  if config.autoSchedule then d.scheduleTurn config else (false, d)

end Dispatcher

/-! ## Deliveries -/

/-- The advertised methods; any other name has no handler. -/
inductive Method where
  | sessionsRead
  | sessionsMessage
  | sessionsApprove
  | agentsList
  | agentsMessage
  | inboxRead
  | other (name : String)
  deriving DecidableEq, Repr

namespace Method

def name : Method → String
  | .sessionsRead => "GET /api/workspaces/\x7bworkspace_id\x7d/sessions"
  | .sessionsMessage => "POST /api/sessions/\x7bsession_id\x7d/messages"
  | .sessionsApprove => "POST /api/sessions/\x7bsession_id\x7d/approve"
  | .agentsList => "GET /api/workspaces/\x7bworkspace_id\x7d/agents"
  | .agentsMessage => "POST /api/agents/\x7bagent_id\x7d/message"
  | .inboxRead => "GET /api/workspaces/\x7bworkspace_id\x7d/inbox"
  | .other name => name

/-- Methods with a handler on the frame route. -/
def handled : Method → Bool
  | .other _ => false
  | _ => true

/-- Methods whose body names the session they are ordered in. -/
def bearsSession : Method → Bool
  | .sessionsMessage | .sessionsApprove => true
  | _ => false

end Method

/-- A frame of the stream, or a REST call with the id in its path. -/
inductive Route where
  | frame
  | rest (orchId : OrchId)
  deriving DecidableEq, Repr

/-- How the workspace named in the body relates to the peer's own. -/
inductive WorkspaceCheck where
  | malformed
  | foreign
  | own
  deriving DecidableEq, Repr

/-- An INVOKE of an authenticated peer: the row of an orchestrator in a workspace. -/
structure Invoke where
  peer : OrchId
  workspaceId : String := ""
  route : Route
  method : Method
  msgId : Option String := none
  ordering : Option (Option Int) := none
  sessionId : Option String := none
  workspace : WorkspaceCheck := .own
  deriving DecidableEq, Repr

/-- The id of a REST message: an empty one counts as none, and a fresh one is drawn. -/
def Invoke.drawnId (id : Nat) (invoke : Invoke) : MsgId :=
  match invoke.msgId.filter (· ≠ "") with
  | some given => .given given
  | none => .fresh id

/-- The session a frame is ordered in. -/
def Invoke.orderedSession (invoke : Invoke) : Option String :=
  if invoke.method.bearsSession then invoke.sessionId else none

variable (V : Type)

/-- How the awaited operation ends. `escaped` is an exception that the route does not
turn into an answer, such as the cancellation of the request. -/
inductive HandlerEnd where
  | returned (v : V)
  | httpError (status : Nat) (detail : String)
  | crashed (text : String)
  | escaped
  deriving DecidableEq, Repr

/-- What the peer is told: a body, possibly null, or an error. -/
inductive Outcome where
  | body (result : Option (Stored V))
  | error (status : Nat) (detail : String)
  deriving DecidableEq, Repr

/-- A delivery whose operation is being awaited. -/
structure Task where
  id : Nat
  invoke : Invoke
  key : Key
  outOfOrder : Bool
  deriving DecidableEq, Repr

inductive Event where
  | arrived (id : Nat) (invoke : Invoke) (time : Nat)
  | executed (id : Nat) (invoke : Invoke) (outOfOrder : Bool)
  | answered (id : Nat) (invoke : Invoke) (outcome : Outcome V)
  /-- The operation ended and its result was not remembered. -/
  | lost (id : Nat) (invoke : Invoke)
  deriving DecidableEq, Repr

structure Server where
  config : PeerConfig
  /-- The body a frame with an unknown method is echoed. -/
  echo : Invoke → V
  /-- The body of a frame whose result has left the cache already. -/
  accepted : V

structure World where
  dispatcher : Dispatcher V := {}
  clock : Nat := 0
  tasks : List Task := []
  nextId : Nat := 0
  log : List (Event V) := []

inductive Input where
  | arrive (invoke : Invoke) (limited : Bool)
  | finish (id : Nat) (result : HandlerEnd V)
  | turnDone
  | advance (seconds : Nat)
  deriving DecidableEq, Repr

namespace World

variable {V : Type} (server : Server V) (w : World V)

def record (e : Event V) : World V := { w with log := w.log ++ [e] }

def answer (id : Nat) (invoke : Invoke) (outcome : Outcome V) : World V :=
  w.record (.answered id invoke outcome)

/-- A cached result as a frame shows it: an envelope becomes an error. -/
def frameOutcome : Option (Stored V) → Outcome V
  | some (.envelope status error) => .error status error
  | some (.value v) => .body (some (.value v))
  | none => .body (some (.value server.accepted))

variable (task : Task)

/-- Start the awaited operation of a delivery. -/
def launch : World V :=
  { w with tasks := w.tasks ++ [task] }.record (.executed task.id task.invoke task.outOfOrder)

def complete (key : Key) (result : Stored V) : World V :=
  { w with
    dispatcher := (w.dispatcher.completeDispatch server.config w.clock key result).2 }

/-- Check the ordering of a frame: whether it is out of order, and the new table. -/
def orderFrame (d : Dispatcher V) (invoke : Invoke) : Bool × Dispatcher V :=
  match invoke.orderedSession with
  | none => (false, d)
  | some session =>
    let checked := d.checkOrdering invoke.peer session invoke.ordering
    (!checked.1, checked.2)

variable (id : Nat)

/-- A frame: the ordering is checked first, then the cache is looked up; a method
without handler is echoed at once, and the echo is remembered like any result. -/
def arriveFrame (invoke : Invoke) : World V :=
  let ordered := orderFrame w.dispatcher invoke
  let key := (invoke.peer, .given (invoke.msgId.getD ""))
  let cached := ordered.2.cachedResult w.clock key
  let w := { w with dispatcher := ordered.2.dropExpired w.clock key }
  if cached.isSome then w.answer id invoke (frameOutcome server cached)
  else if invoke.method.handled then w.launch { id, invoke, key, outOfOrder := ordered.1 }
  else
    let w := w.complete server key (.value (server.echo invoke))
    w.answer id invoke (frameOutcome server (w.dispatcher.cachedResult w.clock key))

variable (orchId : OrchId) (invoke : Invoke)

/-- The REST read: the lookup comes before the checks of the body. -/
def arriveRestRead : World V :=
  let key := (orchId, .given (invoke.msgId.getD ""))
  let cached := w.dispatcher.cachedResult w.clock key
  let w := { w with dispatcher := w.dispatcher.dropExpired w.clock key }
  if cached.isSome then w.answer id invoke (.body cached)
  else match invoke.workspace with
    | .malformed => w.answer id invoke (.error 422 "body.workspace_id must be a UUID")
    | .foreign => w.answer id invoke (.error 403 "peer is not trusted in that workspace")
    | .own => w.launch { id, invoke, key, outOfOrder := false }

/-- The REST message: the ordering is checked only on a miss. -/
def arriveRestMessage : World V :=
  match invoke.sessionId with
  | none => w.answer id invoke (.error 422 "session_id is required")
  | some session =>
    let key := (orchId, invoke.drawnId id)
    let cached := w.dispatcher.cachedResult w.clock key
    let w := { w with dispatcher := w.dispatcher.dropExpired w.clock key }
    if cached.isSome then w.answer id invoke (.body cached)
    else
      let checked := w.dispatcher.checkOrdering orchId session invoke.ordering
      { w with dispatcher := checked.2 }.launch { id, invoke, key, outOfOrder := !checked.1 }

def arriveRest : World V :=
  match invoke.method with
  | .sessionsRead => w.arriveRestRead id orchId invoke
  | .sessionsMessage => w.arriveRestMessage id orchId invoke
  | other => w.answer id invoke (.error 422 ("unsupported method '" ++ other.name ++ "'"))

/-- The rate limiter is asked before anything else. -/
def arrive (limited : Bool) : World V :=
  let id := w.nextId
  let w := { w with nextId := id + 1 }.record (.arrived id invoke w.clock)
  if limited then w.answer id invoke (.error 429 "peer rate limit exceeded")
  else match invoke.route with
    | .frame => w.arriveFrame server id invoke
    | .rest orchId => w.arriveRest id orchId invoke

variable (result : HandlerEnd V)

/-- The frame route turns the exceptions of a handler into an envelope and remembers it;
the answer is read back from the cache. -/
def finishFrame : World V :=
  let settle := fun stored =>
    let w := w.complete server task.key stored
    w.answer task.id task.invoke (frameOutcome server (w.dispatcher.cachedResult w.clock task.key))
  match result with
  | .returned v => settle (.value v)
  | .httpError status detail => settle (.envelope status detail)
  | .crashed text => settle (.envelope 500 s!"internal error: {text}")
  | .escaped => w.record (.lost task.id task.invoke)

/-- The REST route lets the exceptions of the operation through: they are answered, but
not remembered. The read answers with its result, the message with the cache's. -/
def finishRest : World V :=
  match result with
  | .returned v =>
    if task.invoke.method = .sessionsRead then
      { w with
        dispatcher := w.dispatcher.rememberResult server.config w.clock task.key (.value v) }.answer
        task.id task.invoke (.body (some (.value v)))
    else
      let w := w.complete server task.key (.value v)
      w.answer task.id task.invoke (.body (w.dispatcher.cachedResult w.clock task.key))
  | .httpError status detail =>
    (w.record (.lost task.id task.invoke)).answer task.id task.invoke (.error status detail)
  | .crashed _ =>
    (w.record (.lost task.id task.invoke)).answer task.id task.invoke
      (.error 500 "Internal Server Error")
  | .escaped => w.record (.lost task.id task.invoke)

def finish (id : Nat) (result : HandlerEnd V) : World V :=
  match w.tasks.find? (·.id = id) with
  | none => w
  | some task =>
    let w := { w with tasks := w.tasks.filter (·.id ≠ id) }
    match task.invoke.route with
    | .frame => w.finishFrame server task result
    | .rest _ => w.finishRest server task result

def step : Input V → World V
  | .arrive invoke limited => w.arrive server invoke limited
  | .finish id result => w.finish server id result
  | .turnDone =>
    { w with dispatcher := { w.dispatcher with activeTurns := w.dispatcher.activeTurns - 1 } }
  | .advance seconds => { w with clock := w.clock + seconds }

end World

end Orchestratord.Peer
