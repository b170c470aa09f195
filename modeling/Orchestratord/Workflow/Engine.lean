import Orchestratord.Foundation.Kahn
import Orchestratord.Workflow.State

/-!
# The declarative workflow engine

`DeclarativeWorkflowEngine` as state passing. Everything outside the engine
(the stage runner, the output validator, snapshot files, the control callback,
the checkpoint file system) is a field of `Setup`, answering from a world `σ`
of its own, so a theorem over every `Setup` is a theorem over every runner.

The engine's event bus keeps a log of what it emits; the log is the trace the
theorems speak about.
-/

namespace Orchestratord.Workflow

open Foundation

/-! ## §1 Schema and topological order -/

structure WorkflowSchema where
  name : String
  version : String := "1.0"
  stages : List StageNode
  /-- `from_dict` refuses a repeated stage id. -/
  distinct : (stages.map (·.id)).Nodup

variable (w : WorkflowSchema)
variable (stageId : Int)

namespace WorkflowSchema

def getStage : Option StageNode := w.stages.find? (fun s => s.id = stageId)

def stageIds : List Int := w.stages.map (·.id)

def dependsOn (w : WorkflowSchema) (stageId : Int) : List Int :=
  ((w.getStage stageId).map (·.dependsOn)).getD []

/-- `adj`: one entry of `s` for every time `s` names the key. -/
def adjacency : List Int :=
  w.stages.flatMap (fun s =>
    (s.dependsOn.filter (fun dep => dep = stageId)).map (fun _ => s.id))

def kahnStart : KahnState Int :=
  { inDegree := fun sid => (w.dependsOn sid).length
    queue := (w.stages.filter (fun s => s.dependsOn.length = 0)).map (·.id)
    order := [] }

def buildDagOrder : Except String (List Int) :=
  let order := (kahnLoop w.adjacency w.stages.length w.kahnStart).order
  if order.length ≠ w.stageIds.length then .error "Workflow DAG contains a cycle"
  else .ok order

end WorkflowSchema

/-! ## §2 Outside world, configuration, events -/

/-- Exceptions by the class the execution loop dispatches on. `workflow` is any
other `WorkflowEngineError`, `foreign` an exception of another class. -/
inductive EngineError where
  | stageTimeout (message : String)
  | stageFailure (message : String)
  | costExceeded (message : String)
  | workflow (message : String)
  | foreign (message : String)
deriving DecidableEq, Repr

def EngineError.message : EngineError → String
  | .stageTimeout m | .stageFailure m | .costExceeded m | .workflow m | .foreign m => m

/-- What awaiting a runner method under its timeout comes to. -/
inductive RunOutcome (ρ : Type) where
  | returned (result : ρ)
  | timedOut
  | raised (error : EngineError)

structure StageRunResult where
  success : Bool
  outputs : List String := []
  artifacts : List (String × String) := []
  costUsd : ℚ := 0
  error : Option String := none
  runId : Option String := none

structure GateResult where
  approved : Bool
  reason : String := ""

structure DecisionRunResult where
  outcome : String := "proceed"
  nextStage : Option Int := none

structure ValidationResult where
  passed : Bool
  message : String

variable (σ : Type)

structure StageRunner where
  run : StageNode → WorkflowState → σ → RunOutcome StageRunResult × σ
  runAction : StageNode → WorkflowState → σ → RunOutcome StageRunResult × σ
  runGate : StageNode → WorkflowState → σ → RunOutcome GateResult × σ
  runDecision : StageNode → WorkflowState → σ → RunOutcome DecisionRunResult × σ

structure EngineConfig where
  costBudget : CostBudget := {}
  maxConcurrentStages : Int := 1
  defaultTimeoutSeconds : Int := 600
  enableSnapshots : Bool := false

structure Setup where
  workflow : WorkflowSchema
  config : EngineConfig := {}
  stageRunner : Option (StageRunner σ)
  /-- `ContractValidator.validate_all`. -/
  validateAll : List String → σ → List ValidationResult × σ
  /-- `RollbackManager.restore_snapshot`; `false` when it raises. -/
  restoreSnapshot : Int → σ → Bool × σ
  /-- The answer the pause loop around the control callback comes to. -/
  controlState : Option (σ → Bool × σ) := none
  /-- The injected checkpoint manager: whether a write reaches the disk. -/
  checkpointManager : Option (σ → Bool × σ) := none

inductive Event where
  | workflowStart (workflowName : String) (totalStages : Nat)
  | workflowComplete (totalCost : ℚ)
  | workflowError (error : String) (stageId : Option Int)
  | stageStart (stageId : Int) (stageName phase : String)
  | stageComplete (stageId : Int) (stageName : String) (cost : ℚ)
  | stageFailed (stageId : Int) (stageName error : String)
  | stageSkipped (stageId : Int) (stageName reason : String)
  | gateRequest (stageId : Int) (stageName mode : String)
  | gateApproved (stageId : Int) (stageName : String)
  | gateRejected (stageId : Int) (stageName reason : String)
  | decisionEvaluated (stageId : Int) (outcome : String) (nextStage : Option Int)
  | costWarning (message : String)
deriving DecidableEq, Repr

structure Engine where
  state : WorkflowState
  costTracker : CostTracker
  decisionHistory : List DecisionRecord := []
  eventLog : List Event := []
  /-- The checkpoint file, if there is one. -/
  checkpoint : Option Checkpoint := none
  env : σ

variable {σ : Type}
variable (e : Engine σ)

def Engine.emit (event : Event) : Engine σ :=
  { e with eventLog := e.eventLog ++ [event] }

def Engine.emitAll (events : List Event) : Engine σ :=
  { e with eventLog := e.eventLog ++ events }

variable (S : Setup σ)

/-- A new engine: empty state, nothing spent, the disk as it is. -/
def Engine.fresh (checkpoint : Option Checkpoint) (env : σ) : Engine σ :=
  { state := { workflowName := S.workflow.name, workflowVersion := S.workflow.version }
    costTracker := { budget := S.config.costBudget }
    checkpoint, env }

/-! ## §3 Running one stage -/

/-- What a stage method comes to: a result or an exception. -/
abbrev StageOutcome (σ : Type) : Type := Except EngineError StageResult × Engine σ

variable (stage : StageNode)

def effectiveTimeout : Int :=
  if stage.timeoutSeconds = 0 then S.config.defaultTimeoutSeconds
  else stage.timeoutSeconds

/-- Await a runner method: a timeout becomes a `StageTimeoutError`, any other
exception passes through, a result goes on to `k`. -/
def awaitRunner {ρ : Type} (out : RunOutcome ρ × σ) (timeoutText : String)
    (e : Engine σ) (k : ρ → Engine σ → StageOutcome σ) : StageOutcome σ :=
  let e := { e with env := out.2 }
  match out.1 with
  | .returned r => k r e
  | .timedOut => (.error (.stageTimeout timeoutText), e)
  | .raised err => (.error err, e)

def optText : Option String → String
  | none => "None"
  | some t => t

def listText (items : List String) : String :=
  "[" ++ String.intercalate ", " (items.map (fun m => "'" ++ m ++ "'")) ++ "]"

def timeoutText (kind : String) (stage : StageNode) (seconds : Int) : String :=
  kind ++ " " ++ toString stage.id ++ " (" ++ stage.name ++ ") timed out after " ++
    toString seconds ++ "s"

def runActionStage (e : Engine σ) : StageOutcome σ :=
  match S.stageRunner with
  | none => (.error (.workflow "StageRunner not injected"), e)
  | some runner =>
    if stage.uses = "" then (.error (.stageFailure "Action stage requires 'uses'"), e)
    else
      awaitRunner (runner.runAction stage e.state e.env)
        (timeoutText "Action stage" stage (effectiveTimeout S stage)) e
        fun r e =>
          if !r.success then
            (.error (.stageFailure ("Action stage " ++ toString stage.id ++ " (" ++
              stage.name ++ ") failed: " ++ optText r.error)), e)
          else
            (.ok { stageId := stage.id, status := .completed, outputs := r.outputs
                   artifacts := r.artifacts, costUsd := r.costUsd }, e)

variable (env : σ)

/-- `_validate_stage_output`: the messages of the checks that failed. -/
def validateStageOutput : List String × σ :=
  let out := S.validateAll stage.validators env
  ((out.1.filter (fun v => !v.passed)).map (·.message), out.2)

/-- A stage without validators is not validated. -/
def validationErrors : List String × σ :=
  if stage.validators = [] then ([], env) else validateStageOutput S stage env

/-- `_run_agent_stage` after the runner returned: budget, success, validators. -/
def settleAgentRun (r : StageRunResult) (e : Engine σ) : StageOutcome σ :=
  match (e.costTracker.add r.costUsd).checkBudget with
  | (.error message, tracker) => (.error (.costExceeded message), { e with costTracker := tracker })
  | (.ok warnings, tracker) =>
    let e := { e with costTracker := tracker }.emitAll (warnings.map .costWarning)
    if !r.success then
      (.error (.stageFailure ("Stage " ++ toString stage.id ++ " (" ++ stage.name ++
        ") failed: " ++ optText r.error)), e)
    else
      let errors := validationErrors S stage e.env
      let e := { e with env := errors.2 }
      if errors.1 ≠ [] then
        (.error (.stageFailure ("Stage " ++ toString stage.id ++
          " validation failed: " ++ listText errors.1)), e)
      else
        (.ok { stageId := stage.id, status := .completed, outputs := r.outputs
               artifacts := r.artifacts, costUsd := r.costUsd, runId := r.runId
               conversationId := e.state.conversationId }, e)

variable (e : Engine σ)

def runAgentStage : StageOutcome σ :=
  let e := { e with costTracker := e.costTracker.resetStage }
  match S.stageRunner with
  | none => (.error (.workflow
      "StageRunner not injected. Call set_stage_runner() before execute()."), e)
  | some runner =>
    awaitRunner (runner.run stage e.state e.env)
      (timeoutText "Stage" stage (effectiveTimeout S stage)) e
      (settleAgentRun S stage)

def runGateStage : StageOutcome σ :=
  match S.stageRunner with
  | none => (.error (.workflow "StageRunner not injected"), e)
  | some runner =>
    let e := e.emit (.gateRequest stage.id stage.name stage.gateMode)
    awaitRunner (runner.runGate stage e.state e.env)
      ("GATE stage " ++ toString stage.id ++ " timed out") e
      fun g e =>
        if g.approved then
          (.ok { stageId := stage.id, status := .gateApproved },
            e.emit (.gateApproved stage.id stage.name))
        else
          (.ok { stageId := stage.id, status := .gateRejected, error := some g.reason },
            e.emit (.gateRejected stage.id stage.name g.reason))

/-- Python's `a or b` on optional integers: zero counts as absent. -/
def orInt (a b : Option Int) : Option Int :=
  match a with
  | some n => if n = 0 then b else some n
  | none => b

def runDecisionStage : StageOutcome σ :=
  match S.stageRunner with
  | none => (.error (.workflow "StageRunner not injected"), e)
  | some runner =>
    awaitRunner (runner.runDecision stage e.state e.env)
      ("DECISION stage " ++ toString stage.id ++ " timed out") e
      fun d e =>
        let resolved := resolveDecision e.decisionHistory stage d.outcome
        let decision := resolved.1
        let e := { e with decisionHistory := resolved.2 }
        if decision.exhausted || decision.converged then
          -- `DecisionExhaustedError` and `ConvergenceError` are handled alike
          (.error (.workflow decision.reason), e.emit (.decisionEvaluated stage.id d.outcome none))
        else
          let next := orInt decision.nextStage d.nextStage
          (.ok { stageId := stage.id, status := .completed
                 decisionOutcome := some decision.outcome
                 decisionNextStage := next },
            e.emit (.decisionEvaluated stage.id decision.outcome next))

def dispatchStage : StageOutcome σ :=
  match stage.kind with
  | .agent => runAgentStage S stage e
  | .gate => runGateStage S stage e
  | .decision => runDecisionStage S stage e
  | .action => runActionStage S stage e

/-- `_execute_stage`: mark running, announce, dispatch on the kind. -/
def executeStage : StageOutcome σ :=
  dispatchStage S stage ({ e with state := e.state.markStageRunning stage.id }.emit
      (.stageStart stage.id stage.name stage.phase))

/-! ## §4 Dependencies, checkpoints, rollback -/

variable (s : WorkflowState)

def dependencySatisfied (dep : Int) : Bool :=
  dep ∈ s.completedStages && match s.getStageResult dep with
    | none => false
    | some r => r.status = .completed || r.status = .gateApproved

def dependenciesSatisfied (stage : StageNode) : Bool := stage.dependsOn.all (dependencySatisfied s)

/-- `_save_checkpoint`; a failed write is swallowed. -/
def saveCheckpoint (currentStageId : Int) (e : Engine σ) : Engine σ :=
  match S.checkpointManager with
  | none => e
  | some write =>
    let state := { e.state with currentStage := currentStageId }
    let out := write e.env
    { e with
      state := state
      env := out.2
      checkpoint := if out.1 then some (.ofState state e.decisionHistory) else e.checkpoint }

/-- Completed stages numbered above the target go back to pending. -/
def updateStateOnRollback (targetId failedStageId : Int) : WorkflowState :=
  let removed := s.completedStages.filter (fun sid => targetId < sid)
  { s with
    completedStages := removed.foldl List.erase s.completedStages
    stageStatuses := removed.foldl
      (fun m sid => Function.update m sid (some .pending)) s.stageStatuses
    stageResults := removed.foldl
      (fun m sid => Function.update m sid none) s.stageResults }.addRollbackEvent
    failedStageId targetId

variable (dagOrder : List Int) (stage : StageNode)

/-- Rollback without the manager: first dependency, else first stage. -/
def simpleRollbackIndex : Nat :=
  let target := match stage.dependsOn with
    | dep :: _ => dep
    | [] => dagOrder.head?.getD 0
  (dagOrder.idxOf? target).getD 0

def rollbackToStage (e : Engine σ) : Nat × Engine σ :=
  match S.config.enableSnapshots, stage.dependsOn with
  | true, target :: _ =>
    let out := S.restoreSnapshot target e.env
    let e := { e with env := out.2 }
    if !out.1 then (simpleRollbackIndex dagOrder stage, e)
    else
      let e := { e with state := updateStateOnRollback e.state target stage.id }
      match dagOrder.idxOf? target with
      | some i => (i, e)
      | none => (simpleRollbackIndex dagOrder stage, e)
  | _, _ => (simpleRollbackIndex dagOrder stage, e)

/-- Target and reason of a gate rollback; `none` when it raises. -/
def resolveGateRollback (rejectionReason : String) : Option (Int × String) :=
  match stage.gateRollbackTo, stage.dependsOn with
  | some target, _ => some (target, "GATE rejected: " ++ rejectionReason ++
      " (explicit rollback_to=" ++ toString target ++ ")")
  | none, dep :: _ => some (dep, "GATE rejected: " ++ rejectionReason ++
      " (rollback to dependency)")
  | none, [] => none

/-- Python's `text or default`. -/
def orText (text : Option String) (default : String) : String :=
  match text with
  | some t => if t = "" then default else t
  | none => default

def handleGateRejection (stage : StageNode)
    (result : StageResult) (e : Engine σ) : Nat × Engine σ :=
  match S.config.enableSnapshots,
      resolveGateRollback stage (orText result.error "GATE rejected") with
  | true, some (target, reason) =>
    -- a failed snapshot restore is only logged here
    let e := { e with env := (S.restoreSnapshot target e.env).2 }
    let state := updateStateOnRollback e.state target stage.id
    let state := if (state.stageStatuses stage.id).isSome
      then state.setStatus stage.id .gateRejected else state
    (((dagOrder.idxOf? target).getD 0),
      { e with state := state }.emit (.gateRejected stage.id stage.name reason))
  | _, _ => rollbackToStage S dagOrder stage e

/-! ## §5 The sequential loop -/

inductive LoopStep (σ : Type) where
  | next (idx : Nat) (errorMsg : Option String) (e : Engine σ)
  | stop (errorMsg : Option String) (e : Engine σ)
  | raise (error : EngineError) (e : Engine σ)

def waitForControl (e : Engine σ) : Bool × Engine σ :=
  match S.controlState with
  | none => (true, e)
  | some callback => ((callback e.env).1, { e with env := (callback e.env).2 })

def skipStage (e : Engine σ) : Engine σ :=
  let e := e.emit (.stageSkipped stage.id stage.name "dependencies not satisfied")
  { e with state := e.state.setStatus stage.id .skipped }

variable (result : StageResult) (e : Engine σ)

/-- Book a finished stage: state, checkpoint, event. -/
def completeStage : Engine σ :=
  (saveCheckpoint S stage.id
    { e with state := e.state.markStageCompleted stage.id result }).emit
      (.stageComplete stage.id stage.name result.costUsd)

/-- `result.status = COMPLETED` on the result object the state holds. -/
def acceptRejection : Engine σ :=
  { e with state := { e.state with
      stageResults := Function.update e.state.stageResults stage.id
        (some { result with status := .completed }) } }

def rejectionText : String :=
  orText result.error ("GATE stage " ++ toString stage.id ++ " rejected")

variable (idx : Nat)
variable (errorMsg : Option String)

/-- The loop body after `_execute_stage` returned. -/
def settleResult (stage : StageNode) (result : StageResult) (e : Engine σ) : LoopStep σ :=
  let e := completeStage S stage result e
  if stage.kind = .gate ∧ result.status = .gateRejected then
    if stage.onError = .rollback ∨ stage.gateRollbackTo.isSome then
      let out := handleGateRejection S dagOrder stage result e
      .next out.1 (some (rejectionText stage result)) out.2
    else if stage.onError = .skip then
      .next (idx + 1) errorMsg (acceptRejection stage result e)
    else .stop (some (rejectionText stage result)) e
  else if stage.kind = .decision then
    .next ((result.decisionNextStage.bind dagOrder.idxOf?).getD (idx + 1)) errorMsg e
  else .next (idx + 1) errorMsg e

/-- `_handle_stage_error` and `mark_stage_failed`. -/
def failStage (message : String) (e : Engine σ) : Engine σ :=
  let e := e.emit (.stageFailed stage.id stage.name message)
  { e with state := e.state.markStageFailed stage.id message }

/-- The `except` clauses of the loop body. -/
def settleError (stage : StageNode) (error : EngineError) (e : Engine σ) : LoopStep σ :=
  match error with
  | .stageTimeout m =>
    let e := failStage stage m e
    if stage.onError = .fail then .stop (some m) e else .next (idx + 1) (some m) e
  | .stageFailure m =>
    let e := failStage stage m e
    if stage.onError = .fail then .stop (some m) e
    else if stage.onError = .rollback then
      let out := rollbackToStage S dagOrder stage e
      .next out.1 (some m) out.2
    else .next (idx + 1) (some m) e
  | .costExceeded m | .workflow m => .stop (some m) (e.emit (.workflowError m (some stage.id)))
  | .foreign m => .raise (.foreign m) e

/-- The loop body past the control check. -/
def visitStage (stage : StageNode) (e : Engine σ) : LoopStep σ :=
  if !dependenciesSatisfied e.state stage then
    .next (idx + 1) errorMsg (skipStage stage e)
  else
    let out := executeStage S stage e
    match out.1 with
    | .ok result => settleResult S dagOrder idx errorMsg stage result out.2
    | .error error => settleError S dagOrder idx stage error out.2

/-- One pass of `while idx < len(dag_order)`. -/
def loopStep (e : Engine σ) : LoopStep σ :=
  match dagOrder[idx]? with
  | none => .stop errorMsg e
  | some stageId =>
    let out := waitForControl S e
    if !out.1 then .stop (some "workflow run cancelled") out.2
    else
      match S.workflow.getStage stageId with
      | none => .next (idx + 1) errorMsg out.2
      | some stage => visitStage S dagOrder idx errorMsg stage out.2

/-- The loop, for at most `fuel` passes; `none` when they do not suffice. -/
def runLoop (S : Setup σ) (dagOrder : List Int) : Nat → Nat → Option String → Engine σ →
      Option (Except EngineError (Option String) × Engine σ)
  | 0, _, _, _ => none
  | fuel + 1, idx, errorMsg, e =>
    match loopStep S dagOrder idx errorMsg e with
    | .next idx errorMsg e => runLoop S dagOrder fuel idx errorMsg e
    | .stop errorMsg e => some (.ok errorMsg, e)
    | .raise error e => some (.error error, e)

/-! ## §6 The parallel ACTION scheduler -/

/-- `asyncio.gather` over a batch: every stage runs, exceptions are collected. -/
def runBatch (S : Setup σ) : List StageNode → Engine σ →
    List (StageNode × Except EngineError StageResult) × Engine σ
  | [], e => ([], e)
  | stage :: rest, e =>
    let out := executeStage S stage e
    let outs := runBatch S rest out.2
    ((stage, out.1) :: outs.1, outs.2)

structure Parallel (σ : Type) where
  pending : List StageNode
  errorMsg : Option String := none
  stopRequested : Bool := false
  engine : Engine σ

def firstError (message : String) : Option String :=
  match errorMsg with
  | some m => some m
  | none => some message

/-- The cost clause of the batch: reset, add, check. -/
def chargeBatchStage (result : StageResult) (e : Engine σ) : Except String Unit × Engine σ :=
  let out := (e.costTracker.resetStage.add result.costUsd).checkBudget
  let e := { e with costTracker := out.2 }
  match out.1 with
  | .error message => (.error message, e)
  | .ok warnings => (.ok (), e.emitAll (warnings.map .costWarning))

variable (p : Parallel σ)

/-- One outcome of a batch. -/
def settleOutcome (outcome : StageNode × Except EngineError StageResult) : Parallel σ :=
  let stage := outcome.1
  let pending := p.pending.filter (fun s => s.id ≠ stage.id)
  match outcome.2 with
  | .error err =>
    { pending
      errorMsg := firstError p.errorMsg err.message
      stopRequested := p.stopRequested || stage.onError = .fail
      engine := failStage stage err.message p.engine }
  | .ok result =>
    match chargeBatchStage result p.engine with
    | (.error message, e) =>
      { pending
        errorMsg := firstError p.errorMsg message
        stopRequested := true
        engine := failStage stage message e }
    | (.ok (), e) =>
      { p with pending, engine := completeStage S stage result e }

/-- Run a batch to its end and settle its outcomes in order. -/
def batchPass (batch : List StageNode) (p : Parallel σ) : Parallel σ :=
  let outs := runBatch S batch p.engine
  outs.1.foldl (settleOutcome S) { p with engine := outs.2 }

def readyStages : List StageNode :=
  p.pending.filter (fun s =>
    s.dependsOn.all (fun dep => dep ∈ p.engine.state.completedStages))

variable (stages : List StageNode) (e : Engine σ)

def skipAll : Engine σ := stages.foldl (fun e stage => skipStage stage e) e

/-- The batch loop, for at most `fuel` batches. -/
def parallelLoop (S : Setup σ) : Nat → Parallel σ → Option (Parallel σ)
  | 0, _ => none
  | fuel + 1, p =>
    match p.pending with
    | [] => some p
    | _ :: _ =>
      let control := waitForControl S p.engine
      let p := { p with engine := control.2 }
      if !control.1 then
        some { p with errorMsg := some "workflow run cancelled", stopRequested := true }
      else
        let ready := readyStages p
        if ready = [] then some { p with engine := skipAll p.pending p.engine }
        else
          let batch := ready.take (max 1 S.config.maxConcurrentStages).toNat
          let p := batchPass S batch p
          if p.stopRequested then some p else parallelLoop S fuel p

/-! ## §7 `execute` -/

structure WorkflowResult where
  success : Bool
  workflowName : String
  completedStages : Nat
  totalCostUsd : ℚ
  conversationId : Option String := none
  error : Option String := none
  stageResults : Int → Option StageResult := fun _ => none

/-- The closing event: an empty message counts as no error here, but not in
`success`. -/
def closeRun : Engine σ :=
  match errorMsg with
  | some m =>
    if m = "" then e.emit (.workflowComplete e.costTracker.totalUsd)
    else e.emit (.workflowError m none)
  | none => e.emit (.workflowComplete e.costTracker.totalUsd)

def runResult (conversationId : Option String) (e : Engine σ) : WorkflowResult :=
  { success := errorMsg.isNone
    workflowName := S.workflow.name
    completedStages := e.state.completedStages.length
    totalCostUsd := e.costTracker.totalUsd
    conversationId
    error := errorMsg
    stageResults := e.state.stageResults }

def initStatuses (s : WorkflowState) : WorkflowState :=
  stages.foldl (fun s stage => s.setStatus stage.id .pending) s

variable (fromStage : Option Int)

/-- Position of `from_stage` in the order, 0 when it is not there. -/
def startIndex : Nat := ((fromStage.bind dagOrder.idxOf?)).getD 0

variable (sid : Int)

/-- Mark one stage before the start as completed, without a result. -/
def assumeCompleted : WorkflowState :=
  if sid ∈ s.completedStages then s
  else { s.setStatus sid .completed with completedStages := s.completedStages ++ [sid] }

/-- The part of `execute` before the schedulers. -/
def prepareRun (e : Engine σ) : Engine σ :=
  let e := { e with state := initStatuses S.workflow.stages e.state }
  let e := e.emit (.workflowStart S.workflow.name S.workflow.stages.length)
  { e with
    state := (dagOrder.take (startIndex dagOrder fromStage)).foldl assumeCompleted e.state }

def isActionStage : Bool :=
  match w.getStage sid with
  | some stage => stage.kind = .action
  | none => false

def schedulesParallel (start : Nat) (s : WorkflowState) : Bool :=
  let remaining := (dagOrder.drop start).filter (fun sid => sid ∉ s.completedStages)
  decide (1 < S.config.maxConcurrentStages) && !remaining.isEmpty &&
    remaining.all (isActionStage S.workflow)

variable (fuel : Nat)

def executeSequential (start : Nat)
    (e : Engine σ) : Option (Except EngineError WorkflowResult × Engine σ) :=
  (runLoop S dagOrder fuel start none e).map fun out =>
    match out.1 with
    | .error err => (.error err, out.2)
    | .ok errorMsg =>
      let e := closeRun errorMsg out.2
      (.ok (runResult S errorMsg e.state.conversationId e), e)

def executeParallelActions (e : Engine σ) : Option (Except EngineError WorkflowResult × Engine σ) :=
  let pending := S.workflow.stages.filter (fun s => s.id ∉ e.state.completedStages)
  (parallelLoop S fuel { pending, engine := e }).map fun p =>
    let e := closeRun p.errorMsg p.engine
    (.ok (runResult S p.errorMsg none e), e)

def execute (fromStage : Option Int) (e : Engine σ) :
    Option (Except EngineError WorkflowResult × Engine σ) :=
  match S.workflow.buildDagOrder with
  | .error message =>
    some (.ok { success := false, workflowName := S.workflow.name
                completedStages := 0, totalCostUsd := 0, error := some message
                conversationId := e.state.conversationId }, e)
  | .ok dagOrder =>
    let start := startIndex dagOrder fromStage
    let e := prepareRun S dagOrder fromStage e
    if schedulesParallel S dagOrder start e.state then executeParallelActions S fuel e
    else executeSequential S dagOrder fuel start e

end Orchestratord.Workflow
