import Orchestratord.Foundation.Dict
import Orchestratord.Foundation.Text

/-! # The peer registry

The rows of the remote orchestrators that have applied to a workspace, the bearer tokens that are
issued to them, and the check that every request of a peer passes. A token is known by its id: the
secret that is handed out stands for the row with its hash. Times are microseconds. -/

namespace Orchestratord.Peer.Registry

open Foundation

/-- A workspace and an orchestrator in it; no two rows have the same. -/
abbrev PeerKey := String × String

inductive Status where
  | pending
  | accepted
  deriving DecidableEq, Repr

structure PeerRow where
  id : Nat
  status : Status := .pending
  tokenId : Option Nat := none
  deriving DecidableEq, Repr

structure AuthToken where
  workspaceId : String
  name : String
  scopes : List String := ["peer.*"]
  expiresAt : Option Int := none
  /-- History: the row that the token was issued to. -/
  issuedTo : Nat
  deriving DecidableEq, Repr

def tokenName (orchId : String) : String := "peer:" ++ orchId

/-- A token that has been replaced: the row it was bound to, and until when it is to be honoured. -/
structure Rotation where
  rowId : Nat
  tokenId : Nat
  time : Int
  grace : Int
  deriving DecidableEq, Repr

/-- The two tables, with the rotations there have been. -/
structure Tables where
  peers : Dict PeerKey PeerRow := .empty
  tokens : Dict Nat AuthToken := .empty
  nextId : Nat := 0
  clock : Int := 0
  rotations : List Rotation := []

namespace Tables

/-! ## The check -/

def isExpired (now : Int) (token : AuthToken) : Bool := token.expiresAt.any (· ≤ now)

variable (t : Tables)

def getPeerByTokenId (tokenId : Nat) (orchId : String) : Option (PeerKey × PeerRow) :=
  t.peers.entries.find? fun entry => entry.2.tokenId = some tokenId ∧ entry.1.2 = orchId

/-- The row that is bound to a token, or the one with the name of the token: a token that has been
rotated out is still taken for the time of grace. -/
def claimedPeer (secret : Nat) (token : AuthToken) (orchHeader : String) :
    Option (PeerKey × PeerRow) :=
  match t.getPeerByTokenId secret orchHeader with
  | some peer => some peer
  | none =>
    if token.name = tokenName orchHeader then
      (t.peers.get (token.workspaceId, orchHeader)).map
        fun row => ((token.workspaceId, orchHeader), row)
    else none

/-- The row that a request belongs to. -/
def requirePeerAuth (header : String) (secret : Nat) : Except (Nat × String) (PeerKey × PeerRow) :=
  let orchHeader := Text.strip header
  if orchHeader = "" then .error (401, "peer identity or token missing")
  else match t.tokens.get secret with
    | none => .error (401, "invalid or expired peer token")
    | some token =>
      if isExpired t.clock token then .error (401, "invalid or expired peer token")
      else if ¬ token.scopes.any (Text.startsWith · "peer.") then
        .error (403, "token lacks peer.* scope")
      else match t.claimedPeer secret token orchHeader with
        | none => .error (401, "peer is not accepted")
        | some (p, row) =>
          if row.status = .accepted then .ok (p, row) else .error (401, "peer is not accepted")

/-! ## Operations -/

variable (p : PeerKey)

/-- The row of a key, made if there is none. A row that is there keeps its trust. -/
def upsertPeer : Tables :=
  match t.peers.get p with
  | some _ => t
  | none => { t with peers := t.peers.set p { id := t.nextId }, nextId := t.nextId + 1 }

/-- Issue a token for a row and bind the row to it. -/
def issueToken : Tables :=
  { t with
    tokens := t.tokens.set t.nextId
      { workspaceId := p.1, name := tokenName p.2, issuedTo := (t.peers.get p).elim 0 (·.id) }
    peers := t.peers.modify p fun row => { row with tokenId := some t.nextId }
    nextId := t.nextId + 1 }

def setPeerStatus (status : Status) : Tables :=
  { t with peers := t.peers.modify p fun row => { row with status } }

/-- An orchestrator applies; one on the list of trust is accepted at once. -/
def postInvite (trusted : Bool) : Tables :=
  if p.2 = "" then t
  else
    let t := t.upsertPeer p
    if trusted then (t.issueToken p).setPeerStatus p .accepted else t

variable (rowId : Nat)

def rowById : Option (PeerKey × PeerRow) := t.peers.entries.find? (·.2.id = rowId)

/-- The operator accepts a row, whatever its status. -/
def postInviteAccept : Tables :=
  match t.rowById rowId with
  | none => t
  | some (p, _) => (t.issueToken p).setPeerStatus p .accepted

/-- The operator rejects a row, whatever its status. -/
def postInviteReject : Tables :=
  match t.rowById rowId with
  | none => t
  | some (p, _) => { t with peers := t.peers.erase p }

def removePeer : Tables := { t with peers := t.peers.erase p }

variable (row : PeerRow) (grace : Int)

/-- Let the token of a row expire after the time of grace; a negative one leaves it alone. -/
def graceExpire : Tables :=
  match row.tokenId with
  | none => t
  | some tokenId =>
    { t with
      tokens := if 0 ≤ grace then
          t.tokens.modify tokenId fun token => { token with expiresAt := some (t.clock + grace) }
        else t.tokens
      rotations := t.rotations ++ [{ rowId := row.id, tokenId, time := t.clock, grace }] }

def rotatePeerToken : Tables :=
  if row.status ≠ .accepted then t else (t.graceExpire row grace).issueToken p

/-- The operator rotates the token of a peer. -/
def postRotatePeerToken : Tables :=
  match t.peers.get p with
  | none => t
  | some row => t.rotatePeerToken p row grace

/-- A peer rotates its own token. -/
def postSelfRotateToken (header : String) (secret : Nat) (grace : Int) : Tables :=
  match t.requirePeerAuth header secret with
  | .error _ => t
  | .ok (p, row) => t.rotatePeerToken p row grace

inductive Input where
  | invite (p : PeerKey) (trusted : Bool)
  | accept (rowId : Nat)
  | reject (rowId : Nat)
  | remove (p : PeerKey)
  | rotate (p : PeerKey) (grace : Int)
  | selfRotate (header : String) (secret : Nat) (grace : Int)
  | advance (microseconds : Nat)
  deriving DecidableEq, Repr

def step : Input → Tables
  | .invite p trusted => t.postInvite p trusted
  | .accept rowId => t.postInviteAccept rowId
  | .reject rowId => t.postInviteReject rowId
  | .remove p => t.removePeer p
  | .rotate p grace => t.postRotatePeerToken p grace
  | .selfRotate header secret grace => t.postSelfRotateToken header secret grace
  | .advance microseconds => { t with clock := t.clock + microseconds }

end Tables

end Orchestratord.Peer.Registry
