import Orchestratord.Foundation.Runs

/-! # Claiming chat sessions

Dispatchers claim pending sessions and write how their runs ended, while requests from outside stop
or pause sessions. A transaction of a dispatcher locks its row; a locked row is skipped by a claim
and waited for by everyone else. The steps come in any order, and a step for which a transaction
would wait does nothing. -/

namespace Orchestratord.Chat

open Foundation List

inductive Status where
  | pending
  | running
  | paused
  | stopped
  | completed
  | failed
  deriving DecidableEq

inductive Request where
  | pause
  | stop

def Request.status : Request → Status
  | pause => .paused
  | stop => .stopped

/-- What a transaction that holds a lock is about to write. -/
inductive Intent where
  | claim
  /-- How the run ended. -/
  | terminal (failed : Bool)
  deriving DecidableEq

structure Row (ι : Type) where
  status : Status := .pending
  lock : Option (ι × Intent) := none
  /-- The dispatchers whose claim was committed. -/
  claimedBy : List ι := []
  /-- The status is that of a request. -/
  requested : Bool := false

namespace Row

variable {ι : Type} [DecidableEq ι] (d : ι) (row : Row ι)

def isFree : Bool := row.status = .pending && row.lock.isNone

def select : Row ι := if row.isFree then { row with lock := some (d, .claim) } else row

def commitClaim : Row ι :=
  if row.lock = some (d, .claim) then
    { row with status := .running, lock := none, claimedBy := row.claimedBy ++ [d],
               requested := false }
  else row

def selectTerminal (failed : Bool) : Row ι :=
  if d ∈ row.claimedBy ∧ row.lock = none then { row with lock := some (d, .terminal failed) }
  else row

/-- A row that is not running any more is left alone. -/
def commitTerminal : Row ι :=
  match row.lock with
  | some (holder, .terminal failed) =>
    if holder ≠ d then row
    else if row.status = .running then
      { row with status := if failed then .failed else .completed, lock := none, requested := false }
    else { row with lock := none }
  | _ => row

/-- The transaction fails, or the dispatcher crashes. -/
def rollback : Row ι := if row.lock.map Prod.fst = some d then { row with lock := none } else row

/-- Whatever the status was when the request read it. -/
def request (asked : Request) : Row ι :=
  if row.lock = none then { row with status := asked.status, requested := true } else row

end Row

inductive Input (ι : Type) where
  | create
  | select (d : ι)
  | commitClaim (d : ι) (session : ℕ)
  | selectTerminal (d : ι) (session : ℕ) (failed : Bool)
  | commitTerminal (d : ι) (session : ℕ)
  | rollback (d : ι) (session : ℕ)
  | request (session : ℕ) (asked : Request)

variable {ι : Type} [DecidableEq ι]

/-- The sessions are listed by the time of their creation. -/
def step (rows : List (Row ι)) : Input ι → List (Row ι)
  | .create => rows ++ [{}]
  | .select d => rows.modify (rows.findIdx Row.isFree) (.select d)
  | .commitClaim d session => rows.modify session (.commitClaim d)
  | .selectTerminal d session failed => rows.modify session (.selectTerminal d · failed)
  | .commitTerminal d session => rows.modify session (.commitTerminal d)
  | .rollback d session => rows.modify session (.rollback d)
  | .request session asked => rows.modify session (.request · asked)

structure Row.Sound (row : Row ι) : Prop where
  claiming : ∀ d, row.lock = some (d, .claim) → row.status = .pending
  claimed : row.claimedBy ≠ [] → row.status ≠ .pending
  once : row.claimedBy.length ≤ 1
  requested : row.requested → row.status ≠ .running

namespace Row.Sound

variable {row : Row ι} (h : row.Sound) (d : ι)

include h

omit [DecidableEq ι] in
theorem select : (row.select d).Sound := by
  unfold Row.select
  split
  case isTrue hfr =>
    exact { h with claiming := fun _ _ => of_decide_eq_true (Bool.and_eq_true_iff.mp hfr).1 }
  · exact h

theorem commitClaim : (row.commitClaim d).Sound := by
  unfold Row.commitClaim
  split
  case isTrue hlock =>
    -- the row is pending, so nobody has claimed it
    have hno : row.claimedBy = [] := by
      by_contra hsome
      exact h.claimed hsome (h.claiming d hlock)
    exact ⟨nofun, fun _ => nofun, by simp [hno], nofun⟩
  · exact h

theorem selectTerminal (failed : Bool) : (row.selectTerminal d failed).Sound := by
  unfold Row.selectTerminal
  split
  · exact { h with claiming := by simp }
  · exact h

theorem commitTerminal : (row.commitTerminal d).Sound := by
  unfold Row.commitTerminal
  split
  case h_1 holder failed _ =>
    split
    · exact h
    split
    · refine ⟨nofun, fun _ => ?_, h.once, nofun⟩
      cases failed
      all_goals exact nofun
    · exact { h with claiming := nofun }
  · exact h

theorem rollback : (row.rollback d).Sound := by
  unfold Row.rollback
  split
  · exact { h with claiming := nofun }
  · exact h

omit [DecidableEq ι] in
theorem request (asked : Request) : (row.request asked).Sound := by
  unfold Row.request
  split
  case isTrue hlock =>
    have hst : asked.status ≠ .pending ∧ asked.status ≠ .running := by
      cases asked
      all_goals exact ⟨nofun, nofun⟩
    refine ⟨fun d hcl => ?_, fun _ => hst.1, h.once, fun _ => hst.2⟩
    simp [hlock] at hcl
  · exact h

end Row.Sound

theorem sound_step {rows : List (Row ι)} (h : ∀ row ∈ rows, row.Sound) (input : Input ι) :
    ∀ row ∈ step rows input, row.Sound := by
  have hmodify (f : Row ι → Row ι) (hf : ∀ row, row.Sound → (f row).Sound) (n : ℕ) :
      ∀ row ∈ rows.modify n f, row.Sound := by
    intro row hrow
    obtain ⟨k, hk⟩ := mem_iff_getElem?.mp hrow
    rw [getElem?_modify] at hk
    obtain ⟨old, hold, rfl⟩ := Option.map_eq_some_iff.mp hk
    have hso := h old (mem_of_getElem? hold)
    split
    · exact hf old hso
    · exact hso
  cases input with
  | create =>
    intro row hrow
    rcases mem_append.mp hrow with hrow | hrow
    · exact h row hrow
    · obtain rfl := mem_singleton.mp hrow
      exact ⟨nofun, fun hno => absurd rfl hno, Nat.zero_le 1, nofun⟩
  | select d => exact hmodify _ (fun _ hrow => hrow.select d) _
  | commitClaim d session => exact hmodify _ (fun _ hrow => hrow.commitClaim d) session
  | selectTerminal d session failed =>
    exact hmodify _ (fun _ hrow => hrow.selectTerminal d failed) session
  | commitTerminal d session => exact hmodify _ (fun _ hrow => hrow.commitTerminal d) session
  | rollback d session => exact hmodify _ (fun _ hrow => hrow.rollback d) session
  | request session asked => exact hmodify _ (fun _ hrow => hrow.request asked) session

/-- No session is claimed twice, and no write of a dispatcher changes a status that a request has
set. -/
def DispatchedOnce (rows : List (Row ι)) : Prop := ∀ row ∈ rows, row.claimedBy.length ≤ 1 ∧
  (row.requested → ∀ d, (row.commitTerminal d).status = row.status)

/-- Whatever the number of dispatchers and the interleaving, each session is dispatched at most
once. -/
theorem dispatchedOnce_of_run (inputs : List (Input ι)) :
    DispatchedOnce (runFrom step [] inputs) := by
  have hst : ∀ (rows : List (Row ι)) (i : Input ι), (∀ row ∈ rows, row.Sound) →
      ∀ row ∈ step rows i, row.Sound := fun _ i h => sound_step h i
  intro row hrow
  have h := Guarded.always hst (by simp) inputs row hrow
  refine ⟨h.once, fun hre d => ?_⟩
  unfold Row.commitTerminal
  split
  · split <;> simp [h.requested hre]
  · rfl

end Orchestratord.Chat
