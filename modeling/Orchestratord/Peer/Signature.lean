import Orchestratord.Peer.Frame

/-! # Signed frames

The signature of a frame and its check, with the store of the nonces that were seen. The check
reads the clock once for the time window and once more for the store. -/

namespace Orchestratord.Peer

open Foundation

/-- A frame is refused, or the check ends in another exception. -/
inductive AuthError where
  | refused (message : String)
  | crashed
  deriving DecidableEq, Repr

/-! ## The signed bytes -/

variable (rt : Runtime)

def canonicalBytes : Option Json.Fields → Bytes
  | none => []
  | some body => rt.canonical body

/-- The orchestrator id as a text; any other value has none. -/
def orchText (orchId : Json) : Option String :=
  if ¬ orchId.truthy then some ""
  else match orchId with
    | .str s => some s
    | _ => none

/-- The parts that the signature covers. -/
def signedParts (orchId : String) (frame : PeerFrame) : List Bytes :=
  [utf8 orchId, utf8 frame.frameId, canonicalBytes rt frame.body,
    utf8 (rt.format ".6f" frame.timestamp)]

def signaturePayload (frame : PeerFrame) : Option Bytes :=
  (orchText frame.orchId).map fun orchId => [sep].intercalate (signedParts rt orchId frame)

/-- Sign a frame, with a fresh nonce unless it has one. -/
def sign (rt : Runtime) (token fresh : String) (frame : PeerFrame) : Except AuthError PeerFrame :=
  if ¬ frame.orchId.truthy then .error (.refused "cannot sign frame without orch_id")
  else if frame.frameId = "" then .error (.refused "cannot sign frame without frame_id")
  else match signaturePayload rt frame with
    | none => .error .crashed
    | some payload => .ok { frame with
        nonce := match frame.nonce with
          | .null => .str fresh
          | nonce => nonce
        signature := .str (rt.hmac token payload) }

/-! ## Nonces -/

def defaultNonceTtlSeconds : ℚ := 120

def timestampWindowSeconds : ℚ := 60

/-- The rows of the store: when the nonce of an orchestrator expires. -/
structure NonceStore where
  rows : String × String → Option ℚ := fun _ => none

variable (store : NonceStore)

namespace NonceStore

/-- Whether a live row has the key. -/
def seen (now : ℚ) (key : String × String) : Bool := (store.rows key).any (now < ·)

/-- Record a nonce that is seen for the first time; an expired row is replaced. -/
def checkAndStore (ttl now : ℚ) (key : String × String) : Bool × NonceStore :=
  if store.seen now key then (false, store)
  else (true, { rows := Function.update store.rows key (some (now + ttl)) })

/-- Delete the expired rows. -/
def prune (now : ℚ) : NonceStore :=
  { rows := fun key => (store.rows key).filter (now < ·) }

end NonceStore

/-! ## The check -/

/-- How long a nonce is kept. -/
def nonceTtl (window : ℚ) : ℚ := max defaultNonceTtlSeconds (2 * window)

/-- Everything but the nonce: the key to look up, unless the frame is refused before. -/
def checkFrame (token : String) (window now : ℚ) (frame : PeerFrame) :
    Except AuthError (String × String) :=
  if ¬ frame.orchId.truthy then .error (.refused "frame missing orch_id")
  else if frame.frameId = "" then .error (.refused "frame missing frame_id")
  else match frame.signature, frame.nonce with
    | .null, _ => .error (.refused "frame missing signature")
    | _, .null => .error (.refused "frame missing nonce")
    | signature, nonce =>
      if window < |now - frame.timestamp| then
        .error (.refused ("timestamp outside ±" ++ rt.format "g" window ++ "s window (frame=" ++
          rt.format ".6f" frame.timestamp ++ ", now=" ++ rt.format ".6f" now ++ ")"))
      else match signaturePayload rt frame, signature, orchText frame.orchId, rt.column nonce with
        | some payload, .str s, some orchId, column =>
          if rt.hmac token payload ≠ s then .error (.refused "signature mismatch")
          else match column with
            | some column => .ok (orchId, column)
            | none => .error .crashed
        | _, _, _, _ => .error .crashed

def verify (token : String) (window now storeNow : ℚ) (frame : PeerFrame)
    (store : NonceStore) : Except AuthError Unit × NonceStore :=
  match checkFrame rt token window now frame with
  | .error e => (.error e, store)
  | .ok key =>
    match store.checkAndStore (nonceTtl window) storeNow key with
    | (true, store) => (.ok (), store)
    | (false, store) => (.error (.refused "nonce replay detected"), store)

end Orchestratord.Peer
