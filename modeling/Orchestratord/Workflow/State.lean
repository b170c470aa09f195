import Mathlib

/-!
# Workflow data

The stage graph of a `workflow.yaml`, the results of its stages, and the state
the engine passes from stage to stage. Dictionaries keyed by stage id are
partial functions; a list keeps its order where the engine reads it. Costs are
exact rationals, and wall-clock fields (timestamps, durations) are left out.
-/

namespace Orchestratord.Workflow

/-! ## §1 Stages -/

inductive StageStatus where
  | pending | running | completed | failed | timedOut | skipped
  | gatePending | gateApproved | gateRejected | rolledBack
deriving DecidableEq, Repr

inductive StageKind where
  | agent | gate | decision | action
deriving DecidableEq, Repr

/-- Error policy of a stage. `other` stands for any text the engine compares
with none of the four documented ones. -/
inductive OnError where
  | fail | skip | retry | rollback | other
deriving DecidableEq, Repr

/-- One entry of `decision_outcomes`; an absent key takes the default. -/
structure DecisionSpec where
  maxTimes : Option Int := none
  rollbackTo : Option Int := none
  convergenceCheck : Bool := false
  next : Option Int := none
deriving DecidableEq, Repr

structure StageNode where
  id : Int
  name : String
  kind : StageKind
  phase : String := ""
  dependsOn : List Int := []
  uses : String := ""
  validators : List String := []
  gateMode : String := ""
  gateRollbackTo : Option Int := none
  decisionOutcomes : List (String × DecisionSpec) := []
  timeoutSeconds : Int := 600
  onError : OnError := .fail
deriving DecidableEq, Repr

structure StageResult where
  stageId : Int
  status : StageStatus
  outputs : List String := []
  artifacts : List (String × String) := []
  error : Option String := none
  costUsd : ℚ := 0
  decisionOutcome : Option String := none
  decisionNextStage : Option Int := none
  runId : Option String := none
  conversationId : Option String := none
deriving DecidableEq, Repr

structure RollbackEvent where
  fromStage : Int
  toStage : Int
  reason : String := ""
deriving DecidableEq, Repr

/-! ## §2 The workflow state -/

structure WorkflowState where
  workflowName : String
  conversationId : Option String := none
  workflowVersion : String := "1.0"
  currentStage : Int := 0
  completedStages : List Int := []
  stageResults : Int → Option StageResult := fun _ => none
  stageStatuses : Int → Option StageStatus := fun _ => none
  costAccumulatedUsd : ℚ := 0
  rollbackEvents : List RollbackEvent := []

variable (s : WorkflowState)

namespace WorkflowState

variable (stageId : Int)

def getStageResult : Option StageResult := s.stageResults stageId

def setStatus (status : StageStatus) : WorkflowState :=
  { s with stageStatuses := Function.update s.stageStatuses stageId (some status) }

def markStageRunning : WorkflowState :=
  { s.setStatus stageId .running with currentStage := stageId }

def markStageCompleted (result : StageResult) : WorkflowState :=
  { s.setStatus stageId result.status with
    completedStages := s.completedStages ++ [stageId]
    stageResults := Function.update s.stageResults stageId (some result)
    costAccumulatedUsd := s.costAccumulatedUsd + result.costUsd }

/-- The failure is stored as a result only when the stage has none yet. -/
def markStageFailed (error : String) : WorkflowState :=
  let s' := s.setStatus stageId .failed
  match s.stageResults stageId with
  | some _ => s'
  | none =>
    { s' with
      stageResults := Function.update s.stageResults stageId
        (some { stageId, status := .failed, error := some error }) }

def addRollbackEvent (fromStage toStage : Int) : WorkflowState :=
  { s with rollbackEvents := s.rollbackEvents ++ [{ fromStage, toStage }] }

end WorkflowState

/-! ## §3 Costs -/

structure CostBudget where
  maxTotalUsd : ℚ := 50
  maxPerStageUsd : ℚ := 10
  warnThresholdPct : ℚ := 4 / 5
deriving DecidableEq, Repr

def CostBudget.warnThresholdUsd (b : CostBudget) : ℚ := b.maxTotalUsd * b.warnThresholdPct

structure CostTracker where
  budget : CostBudget := {}
  totalUsd : ℚ := 0
  stageUsd : ℚ := 0
  warnedTotal : Bool := false
  warnedStage : Bool := false
deriving DecidableEq, Repr

/-- Nearest integer, ties to even. -/
def roundHalfEven (x : ℚ) : Int :=
  let n := x.floor
  let frac := x - n
  if frac < 1 / 2 then n
  else if 1 / 2 < frac then n + 1
  else if n % 2 = 0 then n else n + 1

/-- Text of an amount with two decimals. -/
def usdText (x : ℚ) : String :=
  let cents := roundHalfEven (x * 100)
  let a := cents.natAbs
  let tail := toString (a % 100)
  (if cents < 0 then "-" else "") ++ toString (a / 100) ++ "." ++
    (if a % 100 < 10 then "0" ++ tail else tail)

/-- Text of a fraction as a whole percentage. -/
def percentText (x : ℚ) : String := toString (roundHalfEven (x * 100)) ++ "%"

namespace CostTracker

variable (t : CostTracker)

def resetStage : CostTracker :=
  { t with stageUsd := 0, warnedStage := false }

def add (usd : ℚ) : CostTracker :=
  { t with totalUsd := t.totalUsd + usd, stageUsd := t.stageUsd + usd }

def loadState (totalUsd : ℚ) : CostTracker :=
  { t with totalUsd := totalUsd, stageUsd := 0, warnedTotal := false,
           warnedStage := false }

/-- Total budget, total warning, stage warning, stage budget, in this order.
The warning flags stay set when the last check raises. -/
def checkBudget : Except String (List String) × CostTracker :=
  if t.budget.maxTotalUsd < t.totalUsd then
    (.error ("Total cost $" ++ usdText t.totalUsd ++ " exceeds budget $" ++
      usdText t.budget.maxTotalUsd), t)
  else
    let warnTotal := !t.warnedTotal && decide (t.budget.warnThresholdUsd ≤ t.totalUsd)
    let warnStage := !t.warnedStage &&
      decide (t.budget.maxPerStageUsd * t.budget.warnThresholdPct ≤ t.stageUsd)
    let t' := { t with warnedTotal := t.warnedTotal || warnTotal
                       warnedStage := t.warnedStage || warnStage }
    if t.budget.maxPerStageUsd < t.stageUsd then
      (.error ("Stage cost $" ++ usdText t.stageUsd ++
        " exceeds per-stage budget $" ++ usdText t.budget.maxPerStageUsd), t')
    else
      (.ok ((if warnTotal then
          ["Cost warning: $" ++ usdText t.totalUsd ++ " / $" ++
            usdText t.budget.maxTotalUsd ++ " (" ++
            percentText t.budget.warnThresholdPct ++ " threshold reached)"] else []) ++
        (if warnStage then
          ["Stage cost warning: $" ++ usdText t.stageUsd ++ " / $" ++
            usdText t.budget.maxPerStageUsd] else [])), t')

end CostTracker

/-! ## §4 Decisions -/

structure DecisionRecord where
  stageId : Int
  outcome : String
  nextStage : Option Int := none
deriving DecidableEq, Repr

structure DecisionResult where
  outcome : String
  nextStage : Option Int := none
  rollbackTo : Option Int := none
  exhausted : Bool := false
  converged : Bool := false
  reason : String := ""
deriving DecidableEq, Repr

/-- Python's text of an optional integer. -/
def optIntText : Option Int → String
  | none => "None"
  | some n => toString n

variable (records : List DecisionRecord)

namespace DecisionHistory

def count (outcome : String) (stageId : Int) : Nat :=
  records.countP (fun r => r.stageId = stageId && r.outcome = outcome)

/-- Python's `records[-window:]`; a window of zero or below cuts at the front. -/
def lastRecords (window : Int) : List DecisionRecord :=
  if 0 < window then records.drop (records.length - window.toNat)
  else records.drop (-window).toNat

/-- The last `window` records are all of this stage and outcome. -/
def isDegenerate (outcome : String) (stageId : Int) (window : Int := 5) : Bool :=
  let recent := (lastRecords records window).filter (fun r => r.stageId = stageId)
  if recent.length < window then false
  else recent.all (fun r => r.outcome = outcome)

end DecisionHistory

/-- `DecisionHandler.resolve`: loop bound, convergence check, next stage. Every
branch records the outcome. -/
def resolveDecision (node : StageNode)
    (decisionOutcome : String) : DecisionResult × List DecisionRecord :=
  let outcome := if decisionOutcome = "" then "proceed" else decisionOutcome
  let spec := (node.decisionOutcomes.lookup outcome).getD {}
  let times := DecisionHistory.count records outcome node.id
  match spec.maxTimes.filter (fun m => m ≤ (times : Int)) with
  | some maxTimes =>
    ({ outcome, exhausted := true
       rollbackTo := spec.rollbackTo.or node.dependsOn.head?
       reason := "Max retries (" ++ toString maxTimes ++
         ") exceeded for outcome '" ++ outcome ++ "'" },
      records ++ [{ stageId := node.id, outcome }])
  | none =>
    if spec.convergenceCheck && DecisionHistory.isDegenerate records outcome node.id then
      ({ outcome, converged := true
         reason := "Convergence detected: degenerate loop for outcome '" ++ outcome ++ "'" },
        records ++ [{ stageId := node.id, outcome }])
    else
      ({ outcome, nextStage := spec.next, rollbackTo := spec.rollbackTo
         reason := "Decision resolved: " ++ outcome ++ " -> next_stage=" ++ optIntText spec.next },
        records ++ [{ stageId := node.id, outcome, nextStage := spec.next }])

/-! ## §5 Checkpoints -/

/-- What a checkpoint keeps of a stage result. -/
structure SavedResult where
  status : StageStatus
  outputs : List String
  artifacts : List (String × String)
  error : Option String
  costUsd : ℚ
deriving DecidableEq, Repr

structure Checkpoint where
  workflowName : String
  workflowVersion : String
  currentStage : Int
  completedStages : List Int
  stageResults : Int → Option SavedResult
  decisionHistory : List DecisionRecord
  costAccumulatedUsd : ℚ
  rollbackEvents : List RollbackEvent
  conversationId : Option String

def StageResult.saved (r : StageResult) : SavedResult :=
  { status := r.status, outputs := r.outputs, artifacts := r.artifacts
    error := r.error, costUsd := r.costUsd }

/-- The content `CheckpointManager.save` writes. -/
def Checkpoint.ofState (decisionHistory : List DecisionRecord) : Checkpoint :=
  { workflowName := s.workflowName
    workflowVersion := s.workflowVersion
    currentStage := s.currentStage
    completedStages := s.completedStages
    stageResults := fun sid => (s.stageResults sid).map StageResult.saved
    decisionHistory
    costAccumulatedUsd := s.costAccumulatedUsd
    rollbackEvents := s.rollbackEvents
    conversationId := s.conversationId }

def SavedResult.restored (r : SavedResult) (stageId : Int) : StageResult :=
  { stageId, status := r.status, outputs := r.outputs, artifacts := r.artifacts
    error := r.error, costUsd := r.costUsd }

/-- `CheckpointManager.restore_state`. -/
def Checkpoint.restoreState (c : Checkpoint) : WorkflowState :=
  { workflowName := c.workflowName
    workflowVersion := c.workflowVersion
    currentStage := c.currentStage
    completedStages := c.completedStages
    costAccumulatedUsd := c.costAccumulatedUsd
    rollbackEvents := c.rollbackEvents
    conversationId := c.conversationId
    stageResults := fun sid => (c.stageResults sid).map (·.restored sid)
    stageStatuses := fun sid => (c.stageResults sid).map (·.status) }

end Orchestratord.Workflow
