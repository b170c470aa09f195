import Orchestratord.Foundation.Dict

/-! # Issue records and the retry queue's policy

The part of the issue registry that decides whether and when an issue runs again, and the
pure functions of the dispatch policy. Times and delays are in milliseconds. -/

namespace Orchestratord.Daemon

open Foundation Dict

abbrev IssueId := String

inductive IssueStatus where
  | queued
  | pending
  | running
  | synced
  | pendingReview
  | completed
  | failed
  | paused
  | abandoned
  | verificationFailed
  deriving DecidableEq, Repr

def IssueStatus.isTerminal : IssueStatus → Bool
  | .completed | .failed | .abandoned | .verificationFailed => true
  | _ => false

inductive Intent where
  | none
  | retry
  | followup
  | blocked
  | rebase
  deriving DecidableEq, Repr

/-- Retry and follow-up reopen work that was handled before. -/
def Intent.reopens : Intent → Bool
  | .retry | .followup => true
  | _ => false

inductive IntentSource where
  | label
  | command
  | cli
  | chat
  deriving DecidableEq, Repr

structure IssueRecord where
  status : IssueStatus := .pending
  retryCount : Nat := 0
  nextRetryAt : Option Nat := none
  intent : Intent := .none
  intentSource : Option IntentSource := none
  prNumber : Option Nat := none
  deriving DecidableEq, Repr

abbrev Registry := Dict IssueId IssueRecord

namespace Registry

/-! ## The record's retry plan -/

variable (r : Registry) (id : IssueId)

def persistRetryPlan (retryCount nextRetryAt : Nat) : Registry :=
  r.modify id fun rec => { rec with retryCount, nextRetryAt := some nextRetryAt }

def clearRetryPlan : Registry := r.modify id fun rec => { rec with nextRetryAt := none }

/-- The due time of the issue's persisted retry. -/
def plan : Option Nat := (r.get id).bind (·.nextRetryAt)

def retryCount : Nat := ((r.get id).map (·.retryCount)).getD 0

/-! ## Status and intent -/

def mark (status : IssueStatus) : Registry := r.modify id fun rec => { rec with status }

def markSynced (prNumber : Option Nat) : Registry :=
  r.modify id fun rec => { rec with status := .synced, prNumber := prNumber.or rec.prNumber }

def markIntent (intent : Intent) (source : IntentSource) : Registry :=
  r.modify id fun rec => { rec with intent, intentSource := some source }

def clearIntent : Registry :=
  r.modify id fun rec => { rec with intent := .none, intentSource := none }

def isTerminal : Bool := (r.get id).any (·.status.isTerminal)

def hasPr : Bool := (r.get id).any (·.prNumber.isSome)

def intentIs (p : Intent → Bool) : Bool := (r.get id).any (p ·.intent)

/-- A fresh record. Of the old one the pull request, the intent and the retry counter are
kept; the retry plan is not. -/
def register (status : IssueStatus := .pending) : Registry :=
  match r.get id with
  | none => r.set id { status }
  | some existing => r.set id
      { status
        retryCount := existing.retryCount
        intent := existing.intent
        intentSource := existing.intentSource
        prNumber := existing.prNumber }

/-- The reset of a launch with retry intent; the attempt counts against the rate limit. -/
def resetForRetry : Registry :=
  r.modify id fun rec =>
    { rec with status := .pending, prNumber := none, retryCount := rec.retryCount + 1 }

/-- An abandoned issue becomes pending again. -/
def unblock : Registry :=
  r.modify id fun rec =>
    if rec.status = .abandoned then
      { rec with status := .pending, intent := .none, intentSource := none }
    else rec

/-! ## What the operations leave alone

Writing a record in place keeps every reading of it that the new value agrees on; the
operations unfold to such writes. -/

section Readings

variable (r : Registry) (id other : IssueId)

theorem map_get_modify {α : Type} (read : IssueRecord → α) (f : IssueRecord → IssueRecord)
    (hf : ∀ rec, read (f rec) = read rec) :
    ((r.modify id f).get other).map read = (r.get other).map read := by
  rw [get_modify]
  split
  · rw [Option.map_map]
    congr 1
    ext rec
    exact hf rec
  · rfl

theorem plan_eq : plan r id = ((r.get id).map (·.nextRetryAt)).join := by
  unfold plan
  cases r.get id <;> rfl

variable (f : IssueRecord → IssueRecord) (count due : Nat) (status : IssueStatus)
  (p : Intent → Bool)

theorem intentIs_eq : intentIs r id p = ((r.get id).map (·.intent)).any p := by
  unfold intentIs
  cases r.get id <;> rfl

attribute [simp] mark markSynced markIntent clearIntent

@[simp] theorem isSome_get_modify : ((r.modify id f).get other).isSome = (r.get other).isSome := by
  rw [get_modify]
  split
  · rw [Option.isSome_map]
  · rfl

@[simp] theorem plan_modify (hf : ∀ rec, (f rec).nextRetryAt = rec.nextRetryAt) :
    plan (r.modify id f) other = plan r other := by
  rw [plan_eq, plan_eq, map_get_modify r id other _ f hf]

@[simp] theorem retryCount_modify (hf : ∀ rec, (f rec).retryCount = rec.retryCount) :
    retryCount (r.modify id f) other = retryCount r other := by
  rw [retryCount, retryCount, map_get_modify r id other _ f hf]

@[simp] theorem intentIs_modify (hf : ∀ rec, (f rec).intent = rec.intent) :
    intentIs (r.modify id f) other p = intentIs r other p := by
  rw [intentIs_eq, intentIs_eq, map_get_modify r id other _ f hf]

/-! ## The plan and the counter -/

@[simp] theorem plan_clearRetryPlan :
    plan (clearRetryPlan r id) other = if other = id then none else plan r other := by
  unfold plan clearRetryPlan
  rw [get_modify]
  split
  · cases r.get other <;> rfl
  · rfl

theorem plan_persistRetryPlan : plan (persistRetryPlan r id count due) other =
      if other = id then (r.get id).map fun _ => due else plan r other := by
  unfold plan persistRetryPlan
  rw [get_modify]
  split
  case isTrue h => subst h; cases r.get other <;> rfl
  · rfl

theorem retryCount_persistRetryPlan : retryCount (persistRetryPlan r id count due) other =
      if other = id then ((r.get id).map fun _ => count).getD 0 else retryCount r other := by
  unfold retryCount persistRetryPlan
  rw [get_modify]
  split
  case isTrue h => subst h; cases r.get other <;> rfl
  · rfl

@[simp] theorem intentIs_persistRetryPlan :
    intentIs (persistRetryPlan r id count due) other p = intentIs r other p :=
  intentIs_modify r id other _ p fun _ => rfl

theorem get_register : (register r id status).get other =
      if other = id then some { ((r.get id).getD {}) with status, nextRetryAt := none }
      else r.get other := by
  unfold register
  cases r.get id <;> rw [get_set] <;> split <;> rfl

@[simp] theorem plan_register :
    plan (register r id status) other = if other = id then none else plan r other := by
  unfold plan
  rw [get_register]
  split <;> rfl

@[simp] theorem retryCount_register :
    retryCount (register r id status) other = retryCount r other := by
  unfold retryCount
  rw [get_register]
  split
  case isTrue h => subst h; cases r.get other <;> rfl
  · rfl

theorem intentIs_register (hp : p .none = false) :
    intentIs (register r id status) other p = intentIs r other p := by
  unfold intentIs
  rw [get_register]
  split
  case isTrue h =>
    subst h
    cases r.get other with
    | none => exact hp
    | some rec => rfl
  · rfl

end Readings

end Registry

/-! ## The retry queue's policy -/

structure RetryItem where
  dedupKey : IssueId
  attempt : Nat := 1
  delay : Nat := 0
  scheduledAt : Nat
  requeueCount : Nat := 0
  deriving DecidableEq, Repr

def failureRetryBaseMs : Nat := 10000

/-- Exponential backoff with a cap. -/
def computeRetryDelay (attempt baseMs maxMs : Nat) : Nat := min (baseMs * 2 ^ (attempt - 1)) maxMs

def RetryItem.isReady (item : RetryItem) (now : Nat) : Bool := item.scheduledAt + item.delay ≤ now

def splitReadyRetries (queue : List RetryItem) (now : Nat) : List RetryItem × List RetryItem :=
  queue.partition (·.isReady now)

/-- Put an item off with a doubled delay; `none` beyond the ceiling. -/
def requeueRetryItem (item : RetryItem) (now requeueLimit maxBackoffMs : Nat) : Option RetryItem :=
  if requeueLimit < item.requeueCount + 1 then none
  else some { item with
    requeueCount := item.requeueCount + 1
    delay := min (item.delay * 2) maxBackoffMs
    scheduledAt := now }

theorem requeueRetryItem_dedupKey {item item' : RetryItem} {now limit backoff : Nat}
    (h : requeueRetryItem item now limit backoff = some item') :
    item'.dedupKey = item.dedupKey := by
  unfold requeueRetryItem at h
  split at h
  · cases h
  · cases h; rfl

end Orchestratord.Daemon
