import Orchestratord.Foundation.Json
import Orchestratord.Foundation.Lines

/-! # Peer frames

The frames of the peer protocol and their lines on the wire. The record checks no types, so the
optional fields are kept as the values they were read as. Printing, compressing and hashing are
the host's; `Runtime` names what is used of them. -/

namespace Orchestratord.Peer

open Foundation Json

abbrev Bytes := List UInt8

/-- The text as bytes of UTF-8. -/
def utf8 (s : String) : Bytes := s.toByteArray.data.toList

theorem utf8_injective : Function.Injective utf8 := by
  intro s t h
  exact String.toByteArray_inj.mp (ByteArray.ext (Array.toList_inj.mp h))

/-- The separator of the signed parts. -/
def sep : UInt8 := 0x1f

def openingBrace : UInt8 := 0x7b

/-- What the frames use of their host. -/
structure Runtime where
  /-- The text of a value in UTF-8, on one line. -/
  dumps : Json → Bytes
  /-- Read a value; nothing for bytes that are no text or no value. -/
  loads : Bytes → Option Json
  /-- Compress, as a text of base 64. -/
  pack : Bytes → String
  unpack : String → Option Bytes
  /-- The text of an object with its keys sorted. -/
  canonical : Json.Fields → Bytes
  /-- A number in a format. -/
  format : String → ℚ → String
  /-- The keyed hash of some bytes under a token. -/
  hmac : String → Bytes → String
  /-- A value as it is shown in messages. -/
  repr : Json → String
  /-- The number a text stands for. -/
  readFloat : String → Option ℚ
  /-- A value in a text column of the database; nothing for one that cannot be stored. -/
  column : Json → Option String
  loads_dumps : ∀ value, loads (dumps value) = some value
  loads_newline : ∀ bytes, loads (bytes ++ [newline]) = loads bytes
  /-- The text of an object ends only with it. -/
  loads_of_prefix : ∀ fields first later, dumps (.obj fields) = first ++ later → later ≠ [] →
    loads first = none
  unpack_pack : ∀ bytes, unpack (pack bytes) = some bytes
  /-- Control characters are escaped. -/
  oneLine : ∀ value, OneLine (dumps value)
  dumps_obj : ∀ fields, ∃ rest, dumps (.obj fields) = openingBrace :: rest
  sep_notMem_canonical : ∀ fields, sep ∉ canonical fields
  sep_notMem_format : ∀ spec q, sep ∉ utf8 (format spec q)
  column_str : ∀ s, column (.str s) = some s

def protocolVersion : String := "peer/1"

def compressGzipBase64 : String := "gzip+base64"

inductive PeerFrameType where
  | hello
  | welcome
  | invoke
  | result
  | event
  | subscribe
  | unsubscribe
  | ping
  | pong
  | revoke
  | goodbye
  deriving DecidableEq, Repr

namespace PeerFrameType

def value : PeerFrameType → String
  | .hello => "hello"
  | .welcome => "welcome"
  | .invoke => "invoke"
  | .result => "result"
  | .event => "event"
  | .subscribe => "subscribe"
  | .unsubscribe => "unsubscribe"
  | .ping => "ping"
  | .pong => "pong"
  | .revoke => "revoke"
  | .goodbye => "goodbye"

def all : List PeerFrameType :=
  [.hello, .welcome, .invoke, .result, .event, .subscribe, .unsubscribe, .ping, .pong, .revoke,
    .goodbye]

def ofValue (s : String) : Option PeerFrameType := all.find? (·.value = s)

theorem ofValue_value (type : PeerFrameType) : ofValue type.value = some type := by
  cases type <;> decide

end PeerFrameType

structure PeerFrame where
  type : PeerFrameType
  frameId : String
  protocolVersion : String := Peer.protocolVersion
  orchId : Json := .null
  peerToken : Json := .null
  requestId : Json := .null
  msgId : Json := .null
  ordering : Json := .null
  method : Json := .null
  headers : Option Json.Fields := none
  body : Option Json.Fields := none
  status : Json := .null
  topic : Json := .null
  payload : Option Json.Fields := none
  capabilities : List Json := []
  inFlight : Json := .null
  timestamp : ℚ
  nonce : Json := .null
  signature : Json := .null

namespace PeerFrame

/-! ## Encoding -/

variable (frame : PeerFrame)

/-- The fields that are left out when they hold nothing. -/
def optionalFields : Json.Fields :=
  [("orch_id", frame.orchId), ("peer_token", frame.peerToken), ("request_id", frame.requestId),
    ("msg_id", frame.msgId), ("ordering", frame.ordering), ("method", frame.method),
    ("headers", .ofFields frame.headers), ("status", frame.status), ("topic", frame.topic),
    ("payload", .ofFields frame.payload), ("capabilities", .arr frame.capabilities),
    ("in_flight", frame.inFlight), ("nonce", frame.nonce), ("signature", frame.signature)]

/-- An empty body is signed too, so a body is kept whenever there is one. -/
def bodyField : Json.Fields :=
  match frame.body with
  | some body => [("body", .obj body)]
  | none => []

def toDict : Json.Fields :=
  [("type", .str frame.type.value), ("frame_id", .str frame.frameId),
    ("protocol_version", .str frame.protocolVersion), ("timestamp", .float frame.timestamp)] ++
  frame.optionalFields.filter (! ·.2.isBlank) ++ frame.bodyField

variable (rt : Runtime) (threshold : Int) (d : Json.Fields)

/-- Compress the object under a key if its text is long enough, and say whether. -/
def compressField (key : String) : Json.Fields × Bool :=
  match get d key with
  | .obj fields =>
    let plain := rt.dumps (.obj fields)
    if plain.length < threshold then (d, false)
    else (set d key (.str (rt.pack plain)), true)
  | _ => (d, false)

def compress : Json.Fields :=
  let first := compressField rt threshold d "body"
  let second := compressField rt threshold first.1 "payload"
  if first.2 || second.2 then set second.1 "comp" (.str compressGzipBase64) else second.1

/-- The line's value: only a positive threshold switches compression on. -/
def wire (minBytes : Int) (frame : PeerFrame) : Json.Fields :=
  if 0 < minBytes then compress rt minBytes frame.toDict else frame.toDict

def encode (minBytes : Int) (frame : PeerFrame) : Bytes :=
  rt.dumps (.obj (wire rt minBytes frame)) ++ [newline]

/-! ## Decoding -/

/-- Reading fails with an error about a value, or about its type. -/
inductive DecodeError where
  | value (message : String)
  | type (message : String)
  deriving DecidableEq, Repr

section

variable (rt : Runtime) (data : Json.Fields)

def readType : Except DecodeError PeerFrameType :=
  match get data "type" with
  | .null => .error (.value "frame missing 'type'")
  | .str s =>
    match PeerFrameType.ofValue s with
    | some type => .ok type
    | none => .error (.value ("unknown frame type " ++ rt.repr (.str s)))
  | other => .error (.value ("unknown frame type " ++ rt.repr other))

def readVersion : Except DecodeError String :=
  match (data.lookup "protocol_version").getD (.str Peer.protocolVersion) with
  | .str s =>
    if s = Peer.protocolVersion then .ok s
    else .error (.value ("unsupported protocol_version " ++ rt.repr (.str s)))
  | other => .error (.value ("unsupported protocol_version " ++ rt.repr other))

/-- Anything that can be read as a number; without one the time is taken. -/
def readTimestamp (now : ℚ) (data : Json.Fields) : Except DecodeError ℚ :=
  let raw := (data.lookup "timestamp").getD (.float now)
  let failed := .error (.value ("frame 'timestamp' must be a number, got " ++ rt.repr raw))
  match raw with
  | .float q => .ok q
  | .int n => .ok n
  | .bool b => .ok (if b then 1 else 0)
  | .str s =>
    match rt.readFloat s with
    | some q => .ok q
    | none => failed
  | _ => failed

variable (fresh : String)

/-- A frame without an id gets a fresh one. -/
def readFrameId (data : Json.Fields) : Except DecodeError String :=
  let failed := fun raw => .error (.value ("frame 'frame_id' must be a non-empty string, got " ++
    rt.repr raw))
  match get data "frame_id" with
  | .null => .ok fresh
  | .str s => if s ≠ "" then .ok s else failed (.str s)
  | other => failed other

/-- Whether the line says that it is compressed. -/
def readComp : Except DecodeError Bool :=
  match get data "comp" with
  | .null => .ok false
  | .str s =>
    if s = compressGzipBase64 then .ok true
    else .error (.value ("unsupported frame comp " ++ rt.repr (.str s)))
  | other => .error (.value ("unsupported frame comp " ++ rt.repr other))

/-- The object under a key, restored if the line is compressed and the value is a text. -/
def readObject (comp : Bool) (data : Json.Fields) (key : String) :
    Except DecodeError (Option Json.Fields) :=
  match comp, get data key with
  | true, .str raw =>
    match (rt.unpack raw).bind rt.loads with
    | none => .error (.value ("frame " ++ key ++ " failed decompression"))
    | some (.obj fields) => .ok (some fields)
    | some _ => .error (.value ("frame " ++ key ++ " must decode to an object"))
  | _, value => .ok value.fields?

/-- A list of anything that can be iterated; nothing and the empty values are no capabilities. -/
def readCapabilities : Except DecodeError (List Json) :=
  let raw := get data "capabilities"
  if ¬ raw.truthy then .ok []
  else match raw with
    | .arr items => .ok items
    | .str s => .ok (s.toList.map fun c => .str (String.ofList [c]))
    | .obj fields => .ok (fields.map fun entry => .str entry.1)
    | _ => .error (.type "object is not iterable")

def fromDict (now : ℚ) : Json → Except DecodeError PeerFrame
  | .obj data => do
    let type ← readType rt data
    let protocolVersion ← readVersion rt data
    let timestamp ← readTimestamp rt now data
    let frameId ← readFrameId rt fresh data
    let comp ← readComp rt data
    let body ← readObject rt comp data "body"
    let payload ← readObject rt comp data "payload"
    let capabilities ← readCapabilities data
    .ok {
      type, frameId, protocolVersion, body, payload, capabilities, timestamp
      orchId := .get data "orch_id"
      peerToken := .get data "peer_token"
      requestId := .get data "request_id"
      msgId := .get data "msg_id"
      ordering := .get data "ordering"
      method := .get data "method"
      headers := (get data "headers").fields?
      status := .get data "status"
      topic := .get data "topic"
      inFlight := .get data "in_flight"
      nonce := .get data "nonce"
      signature := .get data "signature" }
  | _ => .error (.value "frame must be a JSON object")

/-- Read one line, with or without its newline. -/
def decode (now : ℚ) (raw : Bytes) : Except DecodeError PeerFrame :=
  match rt.loads raw with
  | some data => fromDict rt fresh now data
  | none => .error (.value "not a line of JSON")

end

end PeerFrame

end Orchestratord.Peer
