import Orchestratord.Foundation.Dict
import Orchestratord.Foundation.Runs

/-! # The lock of the sequential workspace

With the sequential strategy all issues work in one directory, and a lock file says whose turn
it is. Several daemon processes may share the directory. Every operation on the lock file is a
step of its own, and the calls of all processes interleave at these steps; exclusive creation is
atomic and a process is known to be dead or alive.

A call goes by a ticket, which later names the use of the workspace that it has won. -/

namespace Orchestratord.Workspaces

open Foundation Dict Option List

abbrev Pid := Nat

abbrev Ticket := Nat

/-- An issue in the hands of a daemon process. -/
structure Owner where
  pid : Pid
  issueId : String
  deriving DecidableEq, Repr

structure LockFile where
  ticket : Ticket
  owner : Owner
  /-- The file is created empty; the process id is written later. -/
  written : Bool := false
  deriving DecidableEq, Repr

/-- The next operation of a call. -/
inductive LockStage where
  /-- The integration branch is checked out, and the tree has to be clean. -/
  | preparing
  | looking
  | reading
  | unlinking
  | creating
  | writing
  /-- The hook for new workspaces and the exclude file. -/
  | finishing
  /-- The preparation has failed. -/
  | releasing
  /-- A cleanup; `holds` tells whether its issue has the workspace. -/
  | cleaning (holds : Bool)
  deriving DecidableEq, Repr

/-- The lock file is created and not yet removed. -/
def LockStage.uses : LockStage → Bool
  | .writing | .finishing | .cleaning true => true
  | _ => false

structure LockCall where
  owner : Owner
  stage : LockStage
  deriving DecidableEq, Repr

inductive Remover where
  /-- A creation that takes the lock for stale. -/
  | recovery (ticket : Ticket)
  | failure (ticket : Ticket)
  | cleanup (owner : Owner)
  deriving DecidableEq, Repr

/-- A lock file that was removed, by whom, and whether the process of its owner was alive. -/
structure Removal where
  lock : LockFile
  remover : Remover
  ownerAlive : Bool
  deriving DecidableEq, Repr

/-- The lock is removed by the cleanup of its issue, by the creation that has made it and has
failed, or after the death of its process. -/
def Removal.Rightful (r : Removal) : Prop :=
  r.ownerAlive = false ∨ r.remover = .failure r.lock.ticket ∨ r.remover = .cleanup r.lock.owner

/-- The directory, and the processes that share it. -/
structure SharedRoot where
  alive : Finset Pid
  lock : Option LockFile := none
  calls : Dict Ticket LockCall := .empty
  /-- The issues that have got the workspace and have not begun to clean up. -/
  holders : Dict Ticket Owner := .empty
  removals : List Removal := []

namespace SharedRoot

-- whether `sequential_lock` is on
variable (locking : Bool) (s : SharedRoot) (t : Ticket) (call : LockCall)

def goTo (stage : LockStage) : SharedRoot :=
  { s with calls := s.calls.set t { call with stage } }

def drop : SharedRoot := { s with calls := s.calls.erase t }

def unlink (remover : Remover) : SharedRoot :=
  match s.lock with
  | none => s
  | some lock => { s with
      lock := none
      removals := s.removals ++ [{ lock, remover, ownerAlive := lock.owner.pid ∈ s.alive }] }

/-- The process id goes to the file that was opened, wherever it is by now. -/
def write : SharedRoot :=
  { s with lock := s.lock.map fun lock =>
    if lock.ticket = t then { lock with written := true } else lock }

/-- A lock without a process id counts as stale. -/
def lockPidAlive : Bool := s.lock.any fun lock => lock.written && decide (lock.owner.pid ∈ s.alive)

def releaseSequentialLock (remover : Remover) : SharedRoot :=
  if locking then s.unlink remover else s

/-- One operation of a call. `ok` says whether it succeeds, where that does not depend on the
lock file. -/
def advance (ok : Bool) : SharedRoot :=
  match call.stage with
  | .preparing =>
    if ok then s.goTo t call (if locking then .looking else .finishing)
    else s.goTo t call .releasing
  | .looking => s.goTo t call (if s.lock.isSome then .reading else .creating)
  | .reading => s.goTo t call (if s.lockPidAlive then .releasing else .unlinking)
  | .unlinking =>
    if s.lock.isSome then (s.unlink (.recovery t)).goTo t call .creating
    else s.goTo t call .releasing
  | .creating =>
    if s.lock.isSome then s.goTo t call .releasing
    else { s with lock := some { ticket := t, owner := call.owner } }.goTo t call .writing
  | .writing => if ok then (s.write t).goTo t call .finishing else s.goTo t call .releasing
  | .finishing =>
    if ok then { s.drop t with holders := s.holders.set t call.owner } else s.drop t
  | .releasing => (s.releaseSequentialLock locking (.failure t)).drop t
  | .cleaning _ => (s.releaseSequentialLock locking (.cleanup call.owner)).drop t

inductive Input where
  | createForIssue (t : Ticket) (owner : Owner)
  | advance (t : Ticket) (ok : Bool)
  | cleanup (t : Ticket) (owner : Owner)
  | dies (pid : Pid)
  deriving DecidableEq, Repr

variable (t : Ticket)

def isFree : Bool := (s.calls.get t).isNone ∧ (s.holders.get t).isNone

def startCall (owner : Owner) (stage : LockStage) : SharedRoot :=
  if s.isFree t ∧ owner.pid ∈ s.alive then { s with calls := s.calls.set t { owner, stage } }
  else s

/-- A cleanup knows its issue and nothing about the lock. -/
def cleanup (owner : Owner) : SharedRoot :=
  if s.holders.get t = some owner then
    { s with
      holders := s.holders.erase t
      calls := s.calls.set t { owner, stage := .cleaning true } }
  else s.startCall t owner (.cleaning false)

/-- Nothing is left of a process but the lock file. -/
def dies (pid : Pid) : SharedRoot :=
  { s with
    alive := s.alive.erase pid
    calls := s.calls.filterKeys fun t => (s.calls.get t).any (·.owner.pid ≠ pid)
    holders := s.holders.filterKeys fun t => (s.holders.get t).any (·.pid ≠ pid) }

def step : Input → SharedRoot
  | .createForIssue t owner => s.startCall t owner .preparing
  | .advance t ok =>
    match s.calls.get t with
    | none => s
    | some call => s.advance locking t call ok
  | .cleanup t owner => s.cleanup t owner
  | .dies pid => s.dies pid

/-! ## Exclusion -/

/-- The issue has the workspace: under the lock file it has created, or by its return. -/
def Uses (t : Ticket) (owner : Owner) : Prop :=
  (∃ call, s.calls.get t = some call ∧ call.owner = owner ∧ call.stage.uses) ∨
    s.holders.get t = some owner

/-- At most one issue has the workspace, and every lock file that was removed was removed by
its issue or after the death of its process. -/
structure Exclusive : Prop where
  single : ∀ t owner t' owner', s.Uses t owner → s.Uses t' owner' → t = t' ∧ owner = owner'
  removed : ∀ removal ∈ s.removals, removal.Rightful

/-- No lock of a live process is in place. -/
def Vacant : Prop := ∀ lock ∈ s.lock, lock.owner.pid ∉ s.alive

/-- No other call is about to remove the lock file. -/
def Undisturbed (t : Ticket) : Prop :=
  ∀ entry ∈ s.calls.entries, entry.1 = t ∨ entry.2.stage ≠ .unlinking ∧ entry.2.stage ≠ .releasing

/-- What a call may do at this stage. -/
def Admissible (t : Ticket) (ok : Bool) : LockStage → Prop
  | .preparing => ok ∨ s.Vacant
  | .reading => s.Vacant
  | .creating => s.Vacant ∧ s.Undisturbed t
  | _ => True

/-- No creation fails, or reads the lock, while another one holds it; none creates the lock
while another is about to remove it; and a cleanup is called for an issue that has the
workspace. -/
def Orderly : Input → Prop
  | .advance t ok => ∀ call ∈ s.calls.get t, s.Admissible t ok call.stage
  | .cleanup t owner => s.holders.get t = some owner
  | .createForIssue _ _ | .dies _ => True

/-! ## What the operations do to the uses -/

variable {stage : LockStage} {s : SharedRoot} {t : Ticket} {call : LockCall} {owner : Owner}

section Uses

variable {u : Ticket}

theorem Uses.of_goTo (h : (s.goTo t call stage).Uses u owner) :
    s.Uses u owner ∨ u = t ∧ owner = call.owner ∧ stage.uses := by
  rcases h with ⟨found, hget, rfl, hus⟩ | hho
  · rw [show (s.goTo t call stage).calls = s.calls.set t { call with stage } from rfl,
      get_set] at hget
    split at hget
    case isTrue heq =>
      obtain rfl := some.inj hget
      exact .inr ⟨heq, rfl, hus⟩
    · exact .inl (.inl ⟨found, hget, rfl, hus⟩)
  · exact .inl (.inr hho)

theorem Uses.of_drop (h : (s.drop t).Uses u owner) :
    s.Uses u owner ∧ (u = t → s.holders.get t = some owner) := by
  rcases h with ⟨found, hget, how, hus⟩ | hho
  · rw [show (s.drop t).calls = s.calls.erase t from rfl, get_erase] at hget
    split at hget
    · cases hget
    case isFalse hne => exact ⟨.inl ⟨found, hget, how, hus⟩, fun heq => absurd heq hne⟩
  · exact ⟨.inr hho, fun heq => heq ▸ hho⟩

variable {found : LockCall}

theorem call_of_goTo (h : (s.goTo t call stage).calls.get u = some found) :
    (u = t ∧ found = { call with stage }) ∨ u ≠ t ∧ s.calls.get u = some found := by
  rw [show (s.goTo t call stage).calls = s.calls.set t { call with stage } from rfl, get_set] at h
  split at h
  case isTrue heq => exact .inl ⟨heq, (some.inj h).symm⟩
  case isFalse hne => exact .inr ⟨hne, h⟩

theorem call_of_drop (h : (s.drop t).calls.get u = some found) : s.calls.get u = some found := by
  rw [show (s.drop t).calls = s.calls.erase t from rfl, get_erase] at h
  split at h
  · cases h
  · exact h

theorem unlink_drop (s : SharedRoot) (remover : Remover) (t : Ticket) :
    (s.unlink remover).drop t = (s.drop t).unlink remover := by
  obtain ⟨_, lock, _, _, _⟩ := s
  cases lock <;> rfl

end Uses

/-! ## The invariant -/

/-- A call of a live process that is not about to remove the lock of a live process, unless it
has made that lock itself. -/
structure InPlace (s : SharedRoot) (t : Ticket) (call : LockCall) : Prop where
  running : call.owner.pid ∈ s.alive
  apart : s.holders.get t = none
  held : call.stage ≠ .cleaning false
  safe : ∀ lock, s.lock = some lock → lock.owner.pid ∈ s.alive →
    call.stage ≠ .unlinking ∧ (call.stage = .releasing → t = lock.ticket)

/-- Who uses the workspace has made the lock file that is there. -/
structure Sound (s : SharedRoot) : Prop where
  owned : ∀ t owner, s.Uses t owner →
    ∃ lock, s.lock = some lock ∧ lock.ticket = t ∧ lock.owner = owner
  live : ∀ t owner, s.Uses t owner → owner.pid ∈ s.alive
  calls : ∀ t call, s.calls.get t = some call → s.InPlace t call
  rightful : ∀ removal ∈ s.removals, removal.Rightful

namespace Sound

theorem exclusive (h : Sound s) : Exclusive s where
  single := by
    intro t owner t' owner' hus hus'
    obtain ⟨_, hlo, rfl, rfl⟩ := h.owned t owner hus
    obtain ⟨_, hlo', rfl, rfl⟩ := h.owned t' owner' hus'
    obtain rfl := some.inj (hlo.symm.trans hlo')
    exact ⟨rfl, rfl⟩
  removed := h.rightful

/-- A call, old or new, goes to a stage in which it is in its place. -/
theorem goTo (h : Sound s) (hpl : s.InPlace t { call with stage })
    (hus : stage.uses → s.Uses t call.owner) : Sound (s.goTo t call stage) := by
  have hold (u : Ticket) (owner : Owner) (hu : (s.goTo t call stage).Uses u owner) :
      s.Uses u owner := by
    rcases hu.of_goTo with hu | ⟨rfl, rfl, hst⟩
    · exact hu
    · exact hus hst
  refine ⟨fun u owner hu => h.owned u owner (hold u owner hu),
    fun u owner hu => h.live u owner (hold u owner hu), ?_, h.rightful⟩
  intro u found hfo
  rcases call_of_goTo hfo with ⟨rfl, rfl⟩ | ⟨-, hfo⟩
  · exact { hpl with }
  · have hot := h.calls u found hfo
    exact { hot with }

theorem drop (h : Sound s) : Sound (s.drop t) where
  owned := fun u owner hu => h.owned u owner hu.of_drop.1
  live := fun u owner hu => h.live u owner hu.of_drop.1
  calls := fun u found hfo =>
    have hot := h.calls u found (call_of_drop hfo)
    { hot with }
  rightful := h.rightful

/-- The lock file may go when nobody uses the workspace. -/
theorem unlink (h : Sound s) {remover : Remover} (hun : ∀ u owner, ¬ s.Uses u owner)
    (hri : ∀ lock, s.lock = some lock → lock.owner.pid ∈ s.alive →
      remover = .failure lock.ticket ∨ remover = .cleanup lock.owner) :
    Sound (s.unlink remover) := by
  unfold SharedRoot.unlink
  split
  · exact h
  rename_i lock hlo
  refine ⟨fun u owner hu => absurd hu (hun u owner), h.live, ?_, ?_⟩
  · intro u found hfo
    have hot := h.calls u found hfo
    exact { hot with safe := nofun }
  · intro removal hmem
    rcases mem_append.mp hmem with hmem | hmem
    · exact h.rightful removal hmem
    rw [mem_singleton.mp hmem]
    by_cases hal : lock.owner.pid ∈ s.alive
    · exact .inr (hri lock hlo hal)
    · exact .inl (decide_eq_false hal)

/-- Writing into the lock file changes neither its maker nor its owner. -/
theorem write (h : Sound s) (t : Ticket) : Sound (s.write t) := by
  have same (lock : LockFile) (hlo : (s.write t).lock = some lock) :
      ∃ before, s.lock = some before ∧ before.ticket = lock.ticket ∧ before.owner = lock.owner := by
    obtain ⟨before, hbe, rfl⟩ := map_eq_some_iff.mp hlo
    refine ⟨before, hbe, ?_⟩
    split <;> exact ⟨rfl, rfl⟩
  refine ⟨?_, h.live, ?_, h.rightful⟩
  · intro u owner hu
    obtain ⟨lock, hlo, hti, how⟩ := h.owned u owner hu
    refine ⟨if lock.ticket = t then { lock with written := true } else lock, ?_, ?_⟩
    · show s.lock.map _ = _
      rw [hlo]
      rfl
    · split <;> exact ⟨hti, how⟩
  · intro u found hfo
    have hot := h.calls u found hfo
    refine { hot with safe := fun lock hlo hal => ?_ }
    obtain ⟨before, hbe, hti, how⟩ := same lock hlo
    rw [← hti]
    exact hot.safe before hbe (how ▸ hal)

section Advance

variable (h : Sound s) (hcall : s.calls.get t = some call)
include h hcall

/-- A stage that neither uses nor removes anything. -/
theorem goTo_harmless (hus : stage.uses = false)
    (hst : stage ≠ .unlinking ∧ stage ≠ .releasing ∧ stage ≠ .cleaning false) :
    Sound (s.goTo t call stage) := by
  have hpl := h.calls t call hcall
  refine h.goTo ⟨hpl.running, hpl.apart, hst.2.2, ?_⟩ fun hu => ?_
  · exact fun _ _ _ => ⟨hst.1, fun he => absurd he hst.2.1⟩
  · rw [hus] at hu
    cases hu

/-- While no live process has the lock, a call may set out to remove it. -/
theorem goTo_vacant (hva : s.Vacant)
    (hst : stage = .unlinking ∨ stage = .releasing) : Sound (s.goTo t call stage) := by
  have hpl := h.calls t call hcall
  refine h.goTo ⟨hpl.running, hpl.apart, ?_, ?_⟩ ?_
  · rcases hst with rfl | rfl <;> nofun
  · exact fun lock hlo hal => absurd hal (hva lock hlo)
  · rcases hst with rfl | rfl <;> nofun

/-- The file that a recovery removes is the one of a dead process. -/
theorem unlinking (hst : call.stage = .unlinking) :
    Sound ((s.unlink (.recovery t)).goTo t call .creating) := by
  have hde (lock : LockFile) (hlo : s.lock = some lock) : lock.owner.pid ∉ s.alive :=
    fun hal => ((h.calls t call hcall).safe lock hlo hal).1 hst
  have hun : Sound (s.unlink (.recovery t)) := by
    refine h.unlink (fun u owner hu => ?_) fun lock hlo hal => absurd hal (hde lock hlo)
    obtain ⟨lock, hlo, -, rfl⟩ := h.owned u owner hu
    exact hde lock hlo (h.live u _ hu)
  have hca' : (s.unlink (.recovery t)).calls.get t = some call := by
    unfold SharedRoot.unlink
    split <;> exact hcall
  exact hun.goTo_harmless hca' rfl ⟨nofun, nofun, nofun⟩

/-- The lock is created: there was none, so nobody used the workspace, and no other call is
about to remove it. -/
theorem creating (hno : s.lock = none) (hun : s.Undisturbed t) :
    Sound ({ s with lock := some { ticket := t, owner := call.owner } }.goTo t call .writing) := by
  have hnew (u : Ticket) (owner : Owner)
      (hu : ({ s with lock := some { ticket := t, owner := call.owner } }.goTo t call .writing).Uses
        u owner) : u = t ∧ owner = call.owner := by
    rcases hu.of_goTo with hu | ⟨hut, how, -⟩
    · obtain ⟨_, hlo, -⟩ := h.owned u owner hu
      rw [hno] at hlo
      cases hlo
    · exact ⟨hut, how⟩
  have hpl := h.calls t call hcall
  refine ⟨?_, ?_, ?_, h.rightful⟩
  · intro u owner hu
    obtain ⟨rfl, rfl⟩ := hnew u owner hu
    exact ⟨_, rfl, rfl, rfl⟩
  · intro u owner hu
    obtain ⟨rfl, rfl⟩ := hnew u owner hu
    exact hpl.running
  · intro u found hfo
    rcases call_of_goTo hfo with ⟨rfl, rfl⟩ | ⟨hne, hfo⟩
    · exact ⟨hpl.running, hpl.apart, nofun, fun _ _ _ => ⟨nofun, nofun⟩⟩
    have hot := h.calls u found hfo
    have hmem := (mem_entries_iff s.calls u found).mpr hfo
    have hst := (hun (u, found) hmem).resolve_left hne
    exact { hot with safe := fun _ _ _ => ⟨hst.1, fun he => absurd he hst.2⟩ }

/-- A call that uses the workspace is the one that has made the lock. -/
theorem made (hus : call.stage.uses) :
    ∃ lock, s.lock = some lock ∧ lock.ticket = t ∧ lock.owner = call.owner :=
  h.owned t call.owner (.inl ⟨call, hcall, rfl, hus⟩)

/-- At its end a cleanup, or a creation that has failed, leaves nobody who uses the workspace. -/
theorem unused_of_drop
    (hla : ∀ lock, s.lock = some lock → lock.owner.pid ∈ s.alive → t = lock.ticket)
    (u : Ticket) (owner : Owner) : ¬ (s.drop t).Uses u owner := by
  intro hu
  obtain ⟨hold, hho⟩ := hu.of_drop
  obtain ⟨lock, hlo, rfl, rfl⟩ := h.owned u owner hold
  have hut := (hla lock hlo (h.live _ _ hold)).symm
  rw [(h.calls t call hcall).apart] at hho
  cases hho hut

theorem releasing (hst : call.stage = .releasing) : Sound ((s.unlink (.failure t)).drop t) := by
  have hla (lock : LockFile) (hlo : s.lock = some lock) (hal : lock.owner.pid ∈ s.alive) :
      t = lock.ticket :=
    ((h.calls t call hcall).safe lock hlo hal).2 hst
  rw [unlink_drop]
  refine h.drop.unlink (h.unused_of_drop hcall hla) fun lock hlo hal => ?_
  rw [hla lock hlo hal]
  exact .inl rfl

theorem cleaning (hst : call.stage = .cleaning true) :
    Sound ((s.unlink (.cleanup call.owner)).drop t) := by
  obtain ⟨made, hma, rfl, how⟩ := h.made hcall (by rw [hst]; rfl)
  have heq (lock : LockFile) (hlo : s.lock = some lock) : made = lock :=
    some.inj (hma.symm.trans hlo)
  rw [unlink_drop]
  refine h.drop.unlink (h.unused_of_drop hcall fun lock hlo _ => ?_) fun lock hlo _ => .inr ?_
  · rw [heq lock hlo]
  · rw [← how, heq lock hlo]

theorem finishing (hst : call.stage = .finishing) :
    Sound { s.drop t with holders := s.holders.set t call.owner } := by
  have hse : s.Uses t call.owner := .inl ⟨call, hcall, rfl, by rw [hst]; rfl⟩
  have hold (u : Ticket) (owner : Owner)
      (hu : Uses { s.drop t with holders := s.holders.set t call.owner } u owner) :
      s.Uses u owner := by
    rcases hu with ⟨found, hfo, how, hus⟩ | hho
    · exact .inl ⟨found, call_of_drop hfo, how, hus⟩
    rw [get_set] at hho
    split at hho
    case isTrue heq =>
      obtain rfl := some.inj hho
      exact heq ▸ hse
    · exact .inr hho
  refine ⟨fun u owner hu => h.owned u owner (hold u owner hu),
    fun u owner hu => h.live u owner (hold u owner hu), ?_, h.rightful⟩
  intro u found hfo
  have hne : u ≠ t := by
    rintro rfl
    change (s.calls.erase u).get u = some found at hfo
    rw [get_erase_self] at hfo
    cases hfo
  have hot := h.calls u found (call_of_drop hfo)
  refine { hot with apart := ?_ }
  show (s.holders.set t call.owner).get u = none
  rw [get_set_ne _ _ hne]
  exact hot.apart

/-- One operation of a call, with the lock switched on. -/
theorem advance (ok : Bool) (had : s.Admissible t ok call.stage) :
    Sound (s.advance true t call ok) := by
  have hhe := (h.calls t call hcall).held
  unfold SharedRoot.advance
  generalize hst : call.stage = stage at had hhe
  cases stage with
  | preparing =>
    dsimp only
    split
    · exact h.goTo_harmless hcall rfl ⟨nofun, nofun, nofun⟩
    case isFalse hok => exact h.goTo_vacant hcall (had.resolve_left hok) (.inr rfl)
  | looking =>
    dsimp only
    split <;> exact h.goTo_harmless hcall rfl ⟨nofun, nofun, nofun⟩
  | reading =>
    dsimp only
    split
    · exact h.goTo_vacant hcall had (.inr rfl)
    · exact h.goTo_vacant hcall had (.inl rfl)
  | unlinking =>
    dsimp only
    split
    · exact h.unlinking hcall hst
    rename_i hno
    refine h.goTo_vacant hcall (fun lock hlo => ?_) (.inr rfl)
    rw [mem_def.mp hlo] at hno
    exact absurd rfl hno
  | creating =>
    dsimp only
    split
    · exact h.goTo_vacant hcall had.1 (.inr rfl)
    case isFalse hno => exact h.creating hcall (not_isSome_iff_eq_none.mp hno) had.2
  | writing =>
    have hus : s.Uses t call.owner := .inl ⟨call, hcall, rfl, by rw [hst]; rfl⟩
    have hpl := h.calls t call hcall
    dsimp only
    split
    · exact (h.write t).goTo ⟨hpl.running, hpl.apart, nofun, fun _ _ _ => ⟨nofun, nofun⟩⟩
        fun _ => hus
    refine h.goTo ⟨hpl.running, hpl.apart, nofun, fun lock hlo _ => ?_⟩ nofun
    refine ⟨nofun, fun _ => ?_⟩
    obtain ⟨_, hma, hti, -⟩ := h.owned t call.owner hus
    rw [← hti, some.inj (hma.symm.trans hlo)]
  | finishing =>
    dsimp only
    split
    · exact h.finishing hcall hst
    · exact h.drop
  | releasing => exact h.releasing hcall hst
  | cleaning hol =>
    cases hol with
    | true => exact h.cleaning hcall hst
    | false => exact absurd rfl hhe

end Advance

theorem createForIssue (h : Sound s) (t : Ticket) (owner : Owner) :
    Sound (s.startCall t owner .preparing) := by
  unfold startCall
  split
  case isTrue hfr =>
    obtain ⟨hfr, hal⟩ := hfr
    have hho : s.holders.get t = none := isNone_iff_eq_none.mp (of_decide_eq_true hfr).2
    -- a new call is a call that goes to its first stage
    show Sound (s.goTo t { owner, stage := .preparing } .preparing)
    exact h.goTo ⟨hal, hho, nofun, fun _ _ _ => ⟨nofun, nofun⟩⟩ nofun
  · exact h

/-- The cleanup of a holder keeps the workspace until the lock is gone. -/
theorem cleanup (h : Sound s) (hho : s.holders.get t = some owner) : Sound (s.cleanup t owner) := by
  unfold SharedRoot.cleanup
  rw [if_pos hho]
  let rest : SharedRoot := { s with holders := s.holders.erase t }
  show Sound (rest.goTo t { owner, stage := .cleaning true } (.cleaning true))
  have hse : s.Uses t owner := .inr hho
  have hold (u : Ticket) (other : Owner)
      (hu : (rest.goTo t { owner, stage := .cleaning true } (.cleaning true)).Uses u other) :
      s.Uses u other := by
    rcases hu.of_goTo with (hcall | hot) | ⟨rfl, rfl, -⟩
    · exact .inl hcall
    · change (s.holders.erase t).get u = some other at hot
      rw [get_erase] at hot
      split at hot
      · cases hot
      · exact .inr hot
    · exact hse
  refine ⟨fun u other hu => h.owned u other (hold u other hu),
    fun u other hu => h.live u other (hold u other hu), ?_, h.rightful⟩
  intro u found hfo
  rcases call_of_goTo hfo with ⟨rfl, rfl⟩ | ⟨hne, hfo⟩
  · exact ⟨h.live u owner hse, get_erase_self s.holders u, nofun, fun _ _ _ => ⟨nofun, nofun⟩⟩
  · have hot := h.calls u found hfo
    exact { hot with apart := (get_erase_ne s.holders hne).trans hot.apart }

theorem dies (h : Sound s) (pid : Pid) : Sound (s.dies pid) := by
  have hca (u : Ticket) (found : LockCall) (hfo : (s.dies pid).calls.get u = some found) :
      s.calls.get u = some found ∧ found.owner.pid ≠ pid := by
    change (s.calls.filterKeys _).get u = some found at hfo
    rw [get_filterKeys] at hfo
    split at hfo
    case isTrue hot =>
      rw [hfo] at hot
      exact ⟨hfo, of_decide_eq_true hot⟩
    · cases hfo
  have hhl (u : Ticket) (owner : Owner) (hfo : (s.dies pid).holders.get u = some owner) :
      s.holders.get u = some owner ∧ owner.pid ≠ pid := by
    change (s.holders.filterKeys _).get u = some owner at hfo
    rw [get_filterKeys] at hfo
    split at hfo
    case isTrue hot =>
      rw [hfo] at hot
      exact ⟨hfo, of_decide_eq_true hot⟩
    · cases hfo
  have hold (u : Ticket) (owner : Owner) (hu : (s.dies pid).Uses u owner) :
      s.Uses u owner ∧ owner.pid ≠ pid := by
    rcases hu with ⟨found, hfo, rfl, hus⟩ | hho
    · obtain ⟨hfo, hne⟩ := hca u found hfo
      exact ⟨.inl ⟨found, hfo, rfl, hus⟩, hne⟩
    · obtain ⟨hho, hne⟩ := hhl u owner hho
      exact ⟨.inr hho, hne⟩
  refine ⟨fun u owner hu => h.owned u owner (hold u owner hu).1, ?_, ?_, h.rightful⟩
  · intro u owner hu
    obtain ⟨hus, hne⟩ := hold u owner hu
    exact Finset.mem_erase.mpr ⟨hne, h.live u owner hus⟩
  intro u found hfo
  obtain ⟨hfo, hne⟩ := hca u found hfo
  have hot := h.calls u found hfo
  refine ⟨Finset.mem_erase.mpr ⟨hne, hot.running⟩, ?_, hot.held, ?_⟩
  · refine eq_none_iff_forall_not_mem.mpr fun owner how => ?_
    have hno := hot.apart
    rw [(hhl u owner how).1] at hno
    cases hno
  · intro lock hlo hli
    exact hot.safe lock hlo (Finset.mem_of_mem_erase hli)

theorem step (h : Sound s) (input : Input) (hor : s.Orderly input) : Sound (s.step true input) := by
  cases input with
  | createForIssue t owner => exact h.createForIssue t owner
  | advance t ok =>
    dsimp only [SharedRoot.step]
    split
    · exact h
    case h_2 call hcall => exact h.advance hcall ok (hor call hcall)
  | cleanup t owner => exact h.cleanup hor
  | dies pid => exact h.dies pid

end Sound

/-- With the lock switched on, whatever lock file was left, in every run whose steps are
orderly at most one issue has the workspace at any time, and no lock file is taken from a live
owner. -/
theorem exclusive_of_orderly (alive : Finset Pid) (lock : Option LockFile) (inputs : List Input)
    (hrun : Guarded (step true) Orderly { alive, lock } inputs) (start : List Input)
    (hstart : start <+: inputs) : Exclusive (runFrom (step true) { alive, lock } start) := by
  have hke : ∀ s input, Sound s → s.Orderly input → Sound (s.step true input) :=
    fun _ input h hor => h.step input hor
  have hem (t : Ticket) (owner : Owner) : ¬ Uses { alive, lock } t owner := by
    rintro (⟨_, hcall, -⟩ | hho)
    · cases hcall
    · cases hho
  have hin : Sound { alive, lock } :=
    ⟨fun t owner h => absurd h (hem t owner), fun t owner h => absurd h (hem t owner), nofun, nofun⟩
  exact (hrun.throughout hke hin hstart).exclusive

/-! ## Runs -/

variable (s : SharedRoot)

instance : Decidable s.Vacant :=
  inferInstanceAs (Decidable (∀ lock ∈ s.lock, lock.owner.pid ∉ s.alive))

variable (t : Ticket)

instance : Decidable (s.Undisturbed t) := by
  unfold Undisturbed
  infer_instance

instance (ok : Bool) : ∀ stage, Decidable (s.Admissible t ok stage) :=
  by
  intro _
  unfold Admissible
  split <;> infer_instance

instance : ∀ input, Decidable (s.Orderly input) := by
  intro _
  unfold Orderly
  split <;> infer_instance

/-- A creation that finds no lock file. -/
def acquires (owner : Owner) : List Input :=
  .createForIssue t owner :: replicate 5 (.advance t true)

/-- A creation that finds a lock file, up to the removal or the error. -/
def meetsLock (owner : Owner) : List Input :=
  .createForIssue t owner :: replicate 3 (.advance t true)

/-- Process 1 dies with the lock, process 2 recovers it, cleans up, and takes it again. -/
def recoveryRun : List Input :=
  acquires 0 ⟨1, "a"⟩ ++ .dies 1 :: meetsLock 1 ⟨2, "b"⟩ ++ replicate 4 (.advance 1 true) ++
    .cleanup 1 ⟨2, "b"⟩ :: .advance 1 true :: acquires 2 ⟨2, "c"⟩

theorem recoveryRun_exclusive : Exclusive (runFrom (step true) { alive := {1, 2} } recoveryRun) :=
  exclusive_of_orderly {1, 2} none recoveryRun (by decide) recoveryRun (prefix_refl _)

/-- Issue `a` has the workspace. A creation for `b` is refused, and a second one succeeds. -/
def refusedRun : List Input :=
  acquires 0 ⟨1, "a"⟩ ++ meetsLock 1 ⟨1, "b"⟩ ++ .advance 1 true :: acquires 2 ⟨1, "b"⟩

/-- Two processes find the lock of a dead one. Both are about to remove it. -/
def recoveryRace : List Input :=
  meetsLock 0 ⟨1, "a"⟩ ++ meetsLock 2 ⟨2, "b"⟩ ++ replicate 4 (.advance 0 true) ++
    replicate 4 (.advance 2 true)

/-- In both runs two issues have the workspace, and a lock was taken from its live owner: by the
error path of a refused creation, and by a recovery that came too late. -/
theorem lock_taken_away : let refused := runFrom (step true) { alive := {1} } refusedRun
    let raced := runFrom (step true) { alive := {1, 2}, lock := some ⟨7, ⟨9, "z"⟩, true⟩ }
      recoveryRace
    (¬ Exclusive refused ∧ refused.holders.entries = [(0, ⟨1, "a"⟩), (2, ⟨1, "b"⟩)] ∧
      refused.removals = [⟨⟨0, ⟨1, "a"⟩, true⟩, .failure 1, true⟩]) ∧
    ¬ Exclusive raced ∧ raced.holders.entries = [(0, ⟨1, "a"⟩), (2, ⟨2, "b"⟩)] ∧
      raced.removals = [⟨⟨7, ⟨9, "z"⟩, true⟩, .recovery 0, false⟩,
        ⟨⟨0, ⟨1, "a"⟩, true⟩, .recovery 2, true⟩] := by
  refine ⟨⟨fun h => ?_, by decide, by decide⟩, fun h => ?_, by decide, by decide⟩
  · have hsa := h.single 0 ⟨1, "a"⟩ 2 ⟨1, "b"⟩ (.inr (by decide)) (.inr (by decide))
    cases hsa.1
  · have hsa := h.single 0 ⟨1, "a"⟩ 2 ⟨2, "b"⟩ (.inr (by decide)) (.inr (by decide))
    cases hsa.1

end SharedRoot

end Orchestratord.Workspaces
