import Orchestratord.Daemon.Registry
import Orchestratord.Foundation.Runs

/-! # The generic kernel

A dispatch tick and the tasks it has made run on one event loop. A step of the model is what runs
between two awaits; what the awaited call answers is its input. The kernel does not look into a
work item, so its business data is a type parameter. The semaphore lets a task in at any time. -/

namespace Orchestratord.Kernel

open Foundation
open Daemon (RetryItem)

/-! ## §1 Work -/

variable (β : Type)

structure WorkItem where
  dedupKey : String
  priority : Int := 0
  /-- The attempt of the item's task, if it has one. -/
  attempt : Option ℕ := some 1
  business : β
  deriving DecidableEq

inductive Outcome where
  | dispose
  | retry (delay : ℕ)
  | spawn (item : Option (WorkItem β))
  /-- Also any kind that the kernel does not know. -/
  | waitExternal

/-- Where a task waits. -/
inductive Stage where
  /-- It has not had its first step. -/
  | created
  | acquiring
  | preparing
  /-- The application is told that the run starts, -/
  | announcing
  | running
  | interpreting
  /-- that it has finished, -/
  | finishing
  /-- or that it was cancelled. -/
  | cancelling
  deriving DecidableEq

/-- From here on the running set is cleared when the task ends. -/
def Stage.guarded : Stage → Bool
  | .created | .acquiring | .preparing | .announcing => false
  | .running | .interpreting | .finishing | .cancelling => true

structure Task where
  item : WorkItem β
  stage : Stage := .created
  deriving DecidableEq

/-- A tick that waits: for the provider's poll, with the items it has taken, or for the answer to
a rejection, with the items that are still to be looked at. -/
inductive Tick where
  | polling (hand : List (WorkItem β))
  | rejecting (rest : List (WorkItem β))

/-- What happened to an item: it was to be executed again, or it was. -/
inductive Event where
  | owed (item : WorkItem β)
  | executed (item : WorkItem β)

abbrev TaskId := ℕ

structure OrchestrationKernel where
  maxConcurrentAgents : ℕ
  /-- There are an application and a runner. -/
  executable : Bool := true
  running : Dict String (WorkItem β) := .empty
  completed : Finset String := ∅
  retryQueue : List RetryItem := []
  retryItems : Dict String (WorkItem β) := .empty
  spawnQueue : List (WorkItem β) := []
  /-- The tasks that have not finished. -/
  tasks : Dict TaskId (Task β) := .empty
  nextTask : TaskId := 0
  tick : Option (Tick β) := none
  log : List (Event β) := []

namespace OrchestrationKernel

variable {β : Type}

/-! ## §2 Dispatch -/

/-- How a call that is awaited comes back in the step that makes it. -/
inductive Reply where
  | done
  | waits
  | raises
  deriving DecidableEq

variable (k : OrchestrationKernel β) (item : WorkItem β)

/-- Why an item is not dispatched. -/
def rejection : Option String :=
  let key := item.dedupKey
  if key = "" ∨ (k.running.get key).isSome ∨ key ∈ k.completed then some "duplicate or terminal"
  else if k.maxConcurrentAgents ≤ k.running.size then some "concurrency limit"
  else none

/-- Make a task for the item. -/
def accept : OrchestrationKernel β :=
  { k with
    tasks := k.tasks.set k.nextTask { item }
    nextTask := k.nextTask + 1
    running := k.running.set item.dedupKey item
    log := k.log ++ [.executed item] }

/-- The loop over the items of a tick, up to the first rejection that has to be waited for. An
exception ends the tick. -/
def dispatch (reject : WorkItem β → Reply) :
    List (WorkItem β) → OrchestrationKernel β → OrchestrationKernel β
  | [], k => { k with tick := none }
  | item :: rest, k =>
    match k.rejection item with
    | none => dispatch reject rest (k.accept item)
    | some _ =>
      match reject item with
      | .done => dispatch reject rest k
      | .waits => { k with tick := some (.rejecting rest) }
      | .raises => { k with tick := none }

/-- Items with a higher priority come first, others keep their order. -/
def byPriority (items : List (WorkItem β)) : List (WorkItem β) :=
  items.insertionSort fun a b => -a.priority ≤ -b.priority

/-- Take the items of the retries that are ready. A retry whose item is gone is dropped. -/
def takeReady : List RetryItem → Dict String (WorkItem β) →
    List (WorkItem β) × Dict String (WorkItem β)
  | [], items => ([], items)
  | retry :: rest, items =>
    let (ready, left) := takeReady rest (items.erase retry.dedupKey)
    ((items.get retry.dedupKey).toList ++ ready, left)

/-- The tick after the provider has answered. -/
def polled (hand items : List (WorkItem β)) (reject : WorkItem β → Reply) : OrchestrationKernel β :=
  { k with spawnQueue := [] }.dispatch reject (byPriority (hand ++ items))

/-- What the provider's poll does in the step that calls it. -/
inductive Poll (β : Type) where
  | returns (items : List (WorkItem β))
  | waits
  | raises

/-- The beginning of a tick: ready retries leave their queue, the spawned items are only read. -/
def beginTick (now : ℕ) (poll : Poll β) (reject : WorkItem β → Reply) : OrchestrationKernel β :=
  let (ready, notReady) := k.retryQueue.partition (·.isReady now)
  let (items, left) := takeReady ready k.retryItems
  let hand := k.spawnQueue ++ items
  let k := { k with retryQueue := notReady, retryItems := left }
  match poll with
  | .returns items => k.polled hand items reject
  | .waits => { k with tick := some (.polling hand) }
  | .raises => k

/-! ## §3 Execution -/

def applyOutcome (now : ℕ) : Outcome β → OrchestrationKernel β
  | .dispose => { k with completed := insert item.dedupKey k.completed }
  | .retry delay =>
    { k with
      retryQueue := k.retryQueue ++
        [{ dedupKey := item.dedupKey, attempt := item.attempt.getD 1, delay, scheduledAt := now }]
      retryItems := k.retryItems.set item.dedupKey item
      log := k.log ++ [.owed item] }
  | .spawn (some spawned) =>
    { k with spawnQueue := k.spawnQueue ++ [spawned], log := k.log ++ [.owed spawned] }
  | .spawn none | .waitExternal => k

variable (id : TaskId)

/-- The task ends. -/
def dropTask : OrchestrationKernel β :=
  { k with tasks := k.tasks.erase id }

/-- The task ends and gives its slot back. -/
def finish (item : WorkItem β) : OrchestrationKernel β :=
  { k.dropTask id with running := k.running.erase item.dedupKey }

def toStage (stage : Stage) : OrchestrationKernel β :=
  { k with tasks := k.tasks.modify id fun task => { task with stage } }

/-- What the call a task waits for does. -/
inductive Answer (β : Type) where
  /-- The event loop gives the task its first step. -/
  | starts
  | acquired
  /-- Whether the application prepared a run. -/
  | prepared (run : Bool)
  /-- The application has been told. -/
  | told
  | ran
  | interpreted (outcome : Outcome β) (now : ℕ)
  | raises
  | cancelled

variable (task : Task β)

/-- An exception leaves the coroutine; only behind the try the slot is given back. -/
def leave : OrchestrationKernel β :=
  if task.stage.guarded then k.finish id task.item else k.dropTask id

/-- A cancellation is thrown into the coroutine. Within the try the application is told first. -/
def cancel : OrchestrationKernel β :=
  match task.stage with
  | .running | .interpreting | .finishing => k.toStage id .cancelling
  | .created | .acquiring | .preparing | .announcing | .cancelling => k.leave id task

/-- The coroutine goes on with the answer it waited for. -/
def resume : Stage → Answer β → OrchestrationKernel β
  | .created, .starts =>
    if k.executable ∧ task.item.attempt.isSome then k.toStage id .acquiring
    else (k.applyOutcome task.item 0 .dispose).finish id task.item
  | .acquiring, .acquired => k.toStage id .preparing
  | .preparing, .prepared true => k.toStage id .announcing
  | .preparing, .prepared false => (k.applyOutcome task.item 0 .waitExternal).finish id task.item
  | .announcing, .told => k.toStage id .running
  | .running, .ran => k.toStage id .interpreting
  | .interpreting, .interpreted outcome now =>
    (k.applyOutcome task.item now outcome).toStage id .finishing
  | .finishing, .told | .cancelling, .told => k.finish id task.item
  | .preparing, .raises | .announcing, .raises | .running, .raises | .interpreting, .raises
  | .finishing, .raises | .cancelling, .raises => k.leave id task
  | _, .cancelled => k.cancel id task
  | _, _ => k

/-! ## §4 Steps -/

inductive Input (β : Type) where
  | tick (now : ℕ) (poll : Poll β) (reject : WorkItem β → Reply)
  /-- The poll that a tick waits for returns, or raises. -/
  | polled (items : Option (List (WorkItem β))) (reject : WorkItem β → Reply)
  /-- The rejection that a tick waits for returns, or raises. -/
  | rejected (ok : Bool) (reject : WorkItem β → Reply)
  | task (id : TaskId) (answer : Answer β)
  /-- A host hands over the outcome of a run of its own. -/
  | consume (item : WorkItem β) (outcome : Outcome β) (now : ℕ)

def step : Input β → OrchestrationKernel β
  | .tick now poll reject =>
    match k.tick with
    | none => k.beginTick now poll reject
    | some _ => k
  | .polled items reject =>
    match k.tick, items with
    | some (.polling hand), some items => k.polled hand items reject
    | some (.polling _), none => { k with tick := none }
    | _, _ => k
  | .rejected ok reject =>
    match k.tick with
    | some (.rejecting rest) => if ok then k.dispatch reject rest else { k with tick := none }
    | _ => k
  | .task id answer =>
    match k.tasks.get id with
    | none => k
    | some task => k.resume id task task.stage answer
  | .consume item outcome now => k.applyOutcome item now outcome

end OrchestrationKernel

end Orchestratord.Kernel
