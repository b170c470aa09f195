import Orchestratord.Foundation.Text
import Orchestratord.Gateway.Store

/-! # The outbound dispatcher

A send is the list of its effects in order: the records it appends and the calls it makes to the
channel. What the channel and the clock answer is given with the send, so a crash is a prefix of
the list. The startup replay sends again what the log of the previous process leaves open. -/

namespace Orchestratord.Gateway

open Foundation

/-! ## Results -/

inductive SendStatus where
  | success
  | failed
  | retryableError
  | nonretryableError
  | unsupported
  | rateLimited
  | enqueued
  deriving DecidableEq

inductive ErrorCategory where
  | none
  | network
  | timeout
  | rateLimit
  | serverError
  | clientError
  | auth
  | notFound
  | format
  | unsupportedMedia
  | circuitOpen
  | unknown
  deriving DecidableEq

def ErrorCategory.value : ErrorCategory → String
  | .none => "none"
  | .network => "network"
  | .timeout => "timeout"
  | .rateLimit => "rate_limit"
  | .serverError => "server_error"
  | .clientError => "client_error"
  | .auth => "auth"
  | .notFound => "not_found"
  | .format => "format"
  | .unsupportedMedia => "unsupported_media"
  | .circuitOpen => "circuit_open"
  | .unknown => "unknown"

def retryableCategories : List ErrorCategory := [.network, .timeout, .rateLimit, .serverError]

structure ChannelSendResult where
  ok : Bool
  status : SendStatus
  errorCategory : ErrorCategory := .none
  providerReceipt : Option String := none
  message : Option String := none

namespace ChannelSendResult

def retryable (r : ChannelSendResult) : Bool :=
  if r.ok then false
  else if r.status = .rateLimited then false
  else retryableCategories.contains r.errorCategory

def successful : ChannelSendResult where
  ok := true
  status := .success

def nonretryableError (message : String) (category : ErrorCategory) : ChannelSendResult where
  ok := false
  status := .nonretryableError
  errorCategory := category
  message := some message

def unsupported (message : String) : ChannelSendResult where
  ok := false
  status := .unsupported
  message := some message

end ChannelSendResult

/-! ## Messages and the text of a send -/

structure OutboundMessage where
  text : String
  channel : String := ""
  level : String := "info"
  markdown : Bool := true
  title : Option String := none
  target : Option String := none
  contextToken : Option String := none
  semanticTags : List String := []
  metadata : Option Json.Fields := none
  idempotencyKey : Option String := none

structure ChannelMessage where
  text : String
  title : Option String := none
  markdown : Bool := true
  metadata : Option Json.Fields := none

def defaultChunkSize : ℕ := 4000

/-- The last place of a character among the first `stop`. -/
def rfind (c : Char) (text : List Char) (stop : ℕ) : Option ℕ :=
  ((text.take stop).reverse.findIdx? (· == c)).map fun i => (text.take stop).length - 1 - i

def cutAt (chunkSize : ℕ) (remaining : List Char) : ℕ :=
  match rfind '\n' remaining chunkSize with
  | some cut => cut
  | none =>
    match rfind ' ' remaining chunkSize with
    | some cut => cut
    | none => chunkSize

/-- The loop of `splitText`. Every round takes a character off, so a text needs no more rounds
than it has characters. -/
def splitLoop (chunkSize : ℕ) : ℕ → List Char → List (List Char)
  | 0, _ => []
  | rounds + 1, remaining =>
    if remaining.isEmpty then []
    else if remaining.length ≤ chunkSize then [remaining]
    else
      let cut := cutAt chunkSize remaining
      ((remaining.take cut).reverse.dropWhile Text.isSpace).reverse ::
        splitLoop chunkSize rounds ((remaining.drop cut).dropWhile Text.isSpace)

def splitText (text : String) (chunkSize : ℕ) : List String :=
  let chars := text.toList
  if chars.length ≤ chunkSize then if text = "" then [] else [text]
  else ((splitLoop chunkSize (chars.length + 1) chars).filter (! ·.isEmpty)).map String.ofList

def maybeTruncateWithLiveview (text : String) (maxChunks : Int) : List String :=
  let chunks := splitText text defaultChunkSize
  if chunks.length ≤ maxChunks then chunks
  else
    let kept := String.intercalate "\n\n" (upTo chunks maxChunks)
    [kept ++ "\n\n" ++ "（内容超长已截断）"]

/-! ## Sending -/

/-- The channels and the settings of a gateway, and the text functions it is built on. -/
structure OutboundDispatcher where
  registered : String → Bool
  /-- Why the capability gate rejects a channel. -/
  gateError : String → Option String
  supportsMarkdown : String → Bool
  maxAttempts : String → ℕ
  /-- The channel addresses the recipient itself, whatever the context says. -/
  addressesRecipient : String → Bool
  markdownFallback : Bool
  longMessageThresholdChunks : Int
  stripMarkdown : String → String
  /-- The text of a value that is not a string. -/
  showJson : Json → String

/-- What becomes of one call to the channel. -/
inductive Answer where
  /-- The gate has come to reject the channel. -/
  | unavailable
  | unauthorized
  | returns (result : ChannelSendResult)
  | raises (error : String)

/-- What the channel answers to the attempts for one chunk, and the times of its records: that
of the pending record, then that of the record after each attempt. -/
structure ChunkAnswers where
  answer : ℕ → Answer
  plain : Answer
  clock : ℕ → ℚ

inductive Effect where
  | outbox (record : Record)
  | deadLetter (record : Record)
  | audit (event channel : String)
  /-- A call to the channel, for the chunk with the key. -/
  | hand (key : String) (payload : ChannelMessage) (target contextToken : Option String)

/-- How a function ends: with a result, or with an exception. -/
inductive Ending where
  | returned (result : ChannelSendResult)
  | raised (error : String)

def ofString? (s : Option String) : Json := s.elim .null .str

def pendingRecord (m : OutboundMessage) (key chunk : String) (index total : ℕ) (now : ℚ) :
    Record where
  entries := [("idempotency_key", .str key), ("channel", .str m.channel),
    ("target", ofString? m.target), ("text", .str chunk),
    ("context_token", ofString? m.contextToken), ("title", ofString? m.title),
    ("markdown", .bool m.markdown), ("metadata", .ofFields m.metadata),
    ("semantic_tags", .arr (m.semanticTags.map .str)), ("level", .str m.level),
    ("payload_size", .int chunk.length), ("chunk_index", .int index),
    ("chunks_total", .int total), ("status", .str "pending"), ("at", .float now)]
  nodup := by simp

variable (key channel : String)

def deliveredRecord (r : ChannelSendResult) (attempt : ℕ) (now : ℚ) : Record where
  entries := [("idempotency_key", .str key), ("channel", .str channel),
    ("status", .str "delivered"), ("provider_receipt", ofString? r.providerReceipt),
    ("attempts", .int attempt), ("at", .float now)]
  nodup := by simp

def failedRecord (r : ChannelSendResult) (attempt : ℕ) (now : ℚ) : Record where
  entries := [("idempotency_key", .str key), ("channel", .str channel), ("status", .str "failed"),
    ("error_category", .str r.errorCategory.value), ("message", ofString? r.message),
    ("attempts", .int attempt), ("at", .float now)]
  nodup := by simp

def deadLetterRecord (target : Option String) (r : ChannelSendResult)
    (attempt : ℕ) (now : ℚ) : Record where
  entries := [("idempotency_key", .str key), ("channel", .str channel),
    ("target", ofString? target), ("error_category", .str r.errorCategory.value),
    ("message", ofString? r.message), ("attempts", .int attempt), ("at", .float now)]
  nodup := by simp

def retryRecord (r : ChannelSendResult) (attempt : ℕ) (now : ℚ) : Record where
  entries := [("idempotency_key", .str key), ("channel", .str channel),
    ("status", .str "retry_pending"), ("error_category", .str r.errorCategory.value),
    ("attempt", .int attempt), ("at", .float now)]
  nodup := by simp

def deadRecord (error : String) (now : ℚ) : Record where
  entries := [("idempotency_key", .str key), ("channel", .str channel), ("status", .str "dead"),
    ("error", .str error), ("at", .float now)]
  nodup := by simp

def chunkKey (idem : String) (total index : ℕ) : String :=
  if total = 1 then idem else idem ++ "#" ++ toString index

variable (g : OutboundDispatcher)

namespace OutboundDispatcher

def prepareText (channel text : String) : List String × Bool :=
  let stripped := g.markdownFallback && ! g.supportsMarkdown channel
  let effective := if stripped then g.stripMarkdown text else text
  (maybeTruncateWithLiveview effective g.longMessageThresholdChunks, stripped)

/-- One call to the channel, after the gate and the recipient have been checked again. -/
def sendAuthorized (m : OutboundMessage) (key : String) (payload : ChannelMessage) :
    Answer → List Effect × Ending
  | .unavailable => ([], .returned (.unsupported "channel unavailable"))
  | .unauthorized =>
    ([.audit "outbound_recipient_rejected" m.channel],
      .returned (.nonretryableError "recipient is not authorized" .auth))
  | .returns result => ([call], .returned result)
  | .raises error => ([call], .raised error)
where
  call : Effect :=
    .hand key payload m.target (if g.addressesRecipient m.channel then none else m.contextToken)

/-- The platform rejected the stripped text at the first attempt. -/
def retriesPlain (stripped : Bool) (attempt : ℕ) (r : ChannelSendResult) : Bool :=
  ! r.ok && stripped && r.status = .nonretryableError && r.errorCategory ≠ .auth && attempt = 1

/-- One round of the retry loop, with the payload of the rounds after it. -/
def attemptSend (m : OutboundMessage) (key chunk : String) (stripped : Bool)
    (answers : ChunkAnswers) (attempt : ℕ) (payload : ChannelMessage) :
    List Effect × Ending × ChannelMessage :=
  match g.sendAuthorized m key payload (answers.answer attempt) with
  | (effects, .raised error) => (effects, .raised error, payload)
  | (effects, .returned r) =>
    if retriesPlain stripped attempt r then
      let plain := if chunk ≠ g.stripMarkdown chunk then g.stripMarkdown chunk else chunk
      let payload : ChannelMessage := { text := plain, markdown := false, metadata := m.metadata }
      let again := g.sendAuthorized m key payload answers.plain
      (effects ++ again.1, again.2, payload)
    else (effects, .returned r, payload)

/-- The retry loop; `left` further attempts are within the policy. -/
def retryLoop (g : OutboundDispatcher) (m : OutboundMessage) (key chunk : String) (stripped : Bool)
    (answers : ChunkAnswers) : ℕ → ℕ → ChannelMessage → List Effect × Ending
  | left, attempt, payload =>
    match g.attemptSend m key chunk stripped answers attempt payload with
    | (effects, .raised error, _) => (effects, .raised error)
    | (effects, .returned r, payload) =>
      let now := answers.clock attempt
      if r.ok then
        (effects ++ [.outbox (deliveredRecord key m.channel r attempt now)], .returned r)
      else if r.status = .rateLimited then
        (effects ++ [.outbox (failedRecord key m.channel r attempt now)], .returned r)
      else
        let giveUp := (effects ++ [.outbox (failedRecord key m.channel r attempt now),
          .deadLetter (deadLetterRecord key m.channel m.target r attempt now)], .returned r)
        if r.retryable then
          match left with
          | 0 => giveUp
          | left + 1 =>
            let rest := retryLoop g m key chunk stripped answers left (attempt + 1) payload
            (effects ++ .outbox (retryRecord key m.channel r attempt now) :: rest.1, rest.2)
        else giveUp

def sendChunkWithRetry (m : OutboundMessage) (key chunk : String) (stripped : Bool)
    (answers : ChunkAnswers) : List Effect × Ending :=
  g.retryLoop m key chunk stripped answers (g.maxAttempts m.channel - 1) 1
    { text := chunk, title := m.title, markdown := m.markdown && ! stripped,
      metadata := m.metadata }

/-- The chunk loop, from the chunk at `index` on. -/
def sendChunks (g : OutboundDispatcher) (m : OutboundMessage) (idem : String) (total : ℕ) (stripped : Bool)
    (answers : ℕ → ChunkAnswers) : ℕ → ChannelSendResult → List String → List Effect × Ending
  | _, lastResult, [] => ([], .returned lastResult)
  | index, _, chunk :: rest =>
    let key := chunkKey idem total index
    let pending := .outbox (pendingRecord m key chunk index total ((answers index).clock 0))
    match g.sendChunkWithRetry m key chunk stripped (answers index) with
    | (effects, .raised error) => (pending :: effects, .raised error)
    | (effects, .returned r) =>
      if r.ok then
        let later := g.sendChunks m idem total stripped answers (index + 1) r rest
        (pending :: (effects ++ later.1), later.2)
      else (pending :: effects, .returned r)

end OutboundDispatcher

/-- What a send meets: the answers for each chunk, the time of a record of its own, and the id
it draws. -/
structure SendWorld where
  answers : ℕ → ChunkAnswers
  now : ℚ
  uuid : String

def idemOf (m : OutboundMessage) (uuid : String) : String :=
  match m.idempotencyKey with
  | some key => if key = "" then "out:" ++ uuid else key
  | none => "out:" ++ uuid

namespace OutboundDispatcher

def send (m : OutboundMessage) (w : SendWorld) : List Effect × Ending :=
  let idem := idemOf m w.uuid
  if g.registered m.channel then
    match g.gateError m.channel with
    | some error =>
      ([.outbox (deadRecord idem m.channel ("capability_gate: " ++ error) w.now)],
        .returned (.unsupported error))
    | none =>
      let (chunks, stripped) := g.prepareText m.channel m.text
      g.sendChunks m idem chunks.length stripped w.answers 0 .successful chunks
  else
    ([.outbox (deadRecord idem m.channel "channel_not_found" w.now)],
      .returned (.nonretryableError ("channel '" ++ m.channel ++ "' not registered") .notFound))

/-! ## The replay at startup -/

/-- `str(value or "")` -/
def strOr (value : Option Json) : String :=
  match value with
  | none => ""
  | some (.str s) => s
  | some v => if v.truthy then g.showJson v else ""

def asString? : Option Json → Option String
  | some (.str s) => some s
  | _ => none

def asStrings : Option Json → List String
  | some (.arr items) => items.filterMap fun item => asString? (some item)
  | _ => []

/-- The message that an entry of the log stands for. -/
def rebuild (entry : Record) (key channel : String) (text : Json) : OutboundMessage where
  text := match text with
    | .str s => s
    | v => g.showJson v
  channel := channel
  target := asString? (entry.get "target")
  contextToken := asString? (entry.get "context_token")
  title := asString? (entry.get "title")
  markdown := ((entry.get "markdown").map Json.truthy).getD true
  metadata := (entry.get "metadata").bind Json.fields?
  semanticTags := asStrings (entry.get "semantic_tags")
  idempotencyKey := some key

def replayEntry (entry : Record) (w : SendWorld) : List Effect :=
  let key := g.strOr (entry.get "idempotency_key")
  let channel := g.strOr (entry.get "channel")
  let missing := [.outbox (deadRecord (if key = "" then "unknown" else key) channel
    "replay_payload_missing" w.now)]
  match entry.get "text" with
  | none | some .null => missing
  | some text =>
    if key = "" ∨ channel = "" then missing
    else
      match g.send (g.rebuild entry key channel text) w with
      | (effects, .returned _) => effects
      | (effects, .raised error) =>
        effects ++ [.outbox (deadRecord key channel ("replay_error: " ++ error) w.now)]

end OutboundDispatcher

/-! ## The log file -/

/-- A line of the file that can be parsed: an object, or a value of another kind. -/
inductive Line where
  | object (record : Record)
  | other

def Line.key? : Line → Option String
  | .object record => keyOf? record
  | .other => none

/-- The characters that end a line on reading and are printed as they are. -/
def endsLine (code : ℕ) : Bool := code == 0x85 || code == 0x2028 || code == 0x2029

/-- A string of the record has such a character, so the record is read as several lines. -/
def torn (record : Record) : Bool :=
  (Json.tokens (.obj record.entries)).any fun
    | .str chars => chars.any endsLine
    | _ => false

/-- Printing a record and reading the file again. The pieces of a torn record hold no key: quotes
are escaped within a string, so no piece holds a string of its own choice. -/
structure Printer where
  lines : Record → List Line
  lines_whole : ∀ record, torn record = false → lines record = [.object record]
  lines_torn : ∀ record, torn record = true → ∀ line ∈ lines record, line.key? = none

/-- What the effects of a process leave in the file. -/
def Printer.written (printer : Printer) (effects : List Effect) : List Line :=
  effects.flatMap fun
    | .outbox record => printer.lines record
    | _ => []

/-- A line that is not an object ends the reading with an exception. -/
def records? : List Line → Option (List Record)
  | [] => some []
  | .object record :: rest => (records? rest).map (record :: ·)
  | .other :: _ => none

/-- The replay at startup; an exception of the reading is caught by the caller. -/
def OutboundDispatcher.replayPendingOutbox (log : List Line) (worlds : ℕ → SendWorld) :
    List Effect :=
  match records? log with
  | none => []
  | some records =>
    (outboxReplayable records).zipIdx.flatMap fun (entry, i) => g.replayEntry entry (worlds i)

end Orchestratord.Gateway
