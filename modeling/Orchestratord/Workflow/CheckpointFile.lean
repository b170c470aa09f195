import Orchestratord.Foundation.Json
import Orchestratord.Workflow.Engine

/-!
# The checkpoint file

A checkpoint goes to disk as a JSON document and comes back in four steps: the manager's `save`
picks the fields of the state, `to_dict` those of the document, `from_dict` reads the document and
`restore_state` builds a state. The steps carry different lists of fields. What passes all of them
comes back as it was; the rest of a stage's result and every status without a result do not.
-/

namespace Orchestratord.Workflow

open Foundation Json Checkpoint List Function

/-! ## §1 The document -/

/-- `StageStatus.value`. -/
def StageStatus.value : StageStatus → String
  | .pending => "pending"
  | .running => "running"
  | .completed => "completed"
  | .failed => "failed"
  | .timedOut => "timed_out"
  | .skipped => "skipped"
  | .gatePending => "gate_pending"
  | .gateApproved => "gate_approved"
  | .gateRejected => "gate_rejected"
  | .rolledBack => "rolled_back"

def StageStatus.all : List StageStatus :=
  [.pending, .running, .completed, .failed, .timedOut, .skipped, .gatePending, .gateApproved,
    .gateRejected, .rolledBack]

/-- Restoring takes a text that is no status as completed. -/
def StageStatus.ofValue (text : String) : StageStatus :=
  (StageStatus.all.find? (·.value = text)).getD .completed

theorem StageStatus.ofValue_value (status : StageStatus) : ofValue status.value = status := by
  cases status <;> decide

def SavedResult.toDict (r : SavedResult) : Json :=
  .obj [("status", .str r.status.value), ("outputs", .arr (r.outputs.map .str)),
    ("artifacts", .obj (r.artifacts.map fun a => (a.1, .str a.2))),
    ("error", .ofOption .str r.error),
    ("cost_usd", .float r.costUsd)]

variable (data : Json)

/-- The result as `restore_state` reads it. -/
def SavedResult.ofDict : Option SavedResult := do
  let fields ← data.fields?
  let status ← (getOr fields "status" (.str "completed")).str?
  let outputs ← items? str? (.getOr fields "outputs" (.arr []))
  let artifacts ← entries? (fun a => a.2.str?.map (a.1, ·)) (.getOr fields "artifacts" (.obj []))
  let error ← option? str? (.get fields "error")
  let costUsd ← (getOr fields "cost_usd" (.float 0)).number?
  return { status := .ofValue status, outputs, artifacts, error, costUsd }

def RollbackEvent.toDict (e : RollbackEvent) : Json :=
  .obj [("from_stage", .int e.fromStage), ("to_stage", .int e.toStage), ("reason", .str e.reason)]

def RollbackEvent.ofDict : Option RollbackEvent := do
  let fields ← data.fields?
  let fromStage ← (get fields "from_stage").int?
  let toStage ← (get fields "to_stage").int?
  let reason ← (get fields "reason").str?
  return { fromStage, toStage, reason }

/-- One entry of `DecisionHistory.to_dict`. -/
def DecisionRecord.toDict (r : DecisionRecord) : Json :=
  .obj [("stage", .int r.stageId), ("outcome", .str r.outcome),
    ("next_stage", .ofOption .int r.nextStage)]

/-- One entry of `DecisionHistory.from_dict_list`. -/
def DecisionRecord.ofDict : Option DecisionRecord := do
  let fields ← data.fields?
  let stageId ← (getOr fields "stage" (.int 0)).int?
  let outcome ← (getOr fields "outcome" (.str "")).str?
  let nextStage ← option? int? (.get fields "next_stage")
  return { stageId, outcome, nextStage }

def checkpointSchemaVersion : Int := 1

namespace Checkpoint

/-- `to_dict`; `keys` are the stages of the results' dictionary in its order. -/
def toDict (keys : List Int) (c : Checkpoint) : Json.Fields :=
  [("workflow_name", .str c.workflowName), ("workflow_version", .str c.workflowVersion),
    ("current_stage", .int c.currentStage),
    ("completed_stages", .arr (c.completedStages.map .int)),
    ("stage_results", .obj (keys.filterMap fun sid =>
      (c.stageResults sid).map fun r => (toString sid, r.toDict))),
    ("decision_history", .arr (c.decisionHistory.map DecisionRecord.toDict)),
    ("cost_accumulated_usd", .float c.costAccumulatedUsd),
    ("schema_version", .int checkpointSchemaVersion),
    ("rollback_events", .arr (c.rollbackEvents.map RollbackEvent.toDict)),
    ("conversation_id", .ofOption .str c.conversationId)]

/-- The entries of the results' object, their keys read as numbers. -/
def readResults : Option (List (Int × SavedResult)) :=
  entries? (fun entry => do return (← entry.1.toInt?, ← SavedResult.ofDict entry.2)) data

/-- `from_dict`; no result is an exception. A later entry of a stage replaces an earlier one. -/
def fromDict (data : Json.Fields) : Option Checkpoint := do
  let schemaVersion ← (getOr data "schema_version" (.int 1)).int?
  if checkpointSchemaVersion < schemaVersion then none
  let results ← readResults (.getOr data "stage_results" (.obj []))
  return {
    workflowName := ← (getOr data "workflow_name" (.str "")).str?
    workflowVersion := ← (getOr data "workflow_version" (.str "1.0")).str?
    currentStage := ← (getOr data "current_stage" (.int 0)).int?
    completedStages := ← items? int? (.getOr data "completed_stages" (.arr []))
    stageResults := fun sid => results.reverse.lookup sid
    decisionHistory := ← items? DecisionRecord.ofDict (.getOr data "decision_history" (.arr []))
    costAccumulatedUsd := ← (getOr data "cost_accumulated_usd" (.float 0)).number?
    rollbackEvents := ← items? RollbackEvent.ofDict (.getOr data "rollback_events" (.arr []))
    conversationId := ← option? str? (.get data "conversation_id") }

end Checkpoint

/-! ## §2 What is written is read -/

theorem SavedResult.ofDict_toDict (r : SavedResult) : ofDict r.toDict = some r := by
  have hou : Json.items? Json.str? (.arr (r.outputs.map .str)) = some r.outputs :=
    Json.items?_arr .str (fun _ => rfl) r.outputs
  have har : Json.entries? (fun a => a.2.str?.map (a.1, ·))
      (.obj (r.artifacts.map fun a => (a.1, .str a.2))) = some r.artifacts :=
    Json.entries?_obj (fun a => (a.1, .str a.2)) (fun _ => rfl) r.artifacts
  have her := Json.option?_ofOption_str r.error
  simp [ofDict, toDict, Json.fields?, Json.getOr, Json.get, lookup, hou, har, her,
    StageStatus.ofValue_value]

theorem RollbackEvent.ofDict_toDict (e : RollbackEvent) : ofDict e.toDict = some e := by
  simp [ofDict, toDict, Json.fields?, Json.get, lookup]

theorem DecisionRecord.ofDict_toDict (r : DecisionRecord) : ofDict r.toDict = some r := by
  have hne := Json.option?_ofOption_int r.nextStage
  simp [ofDict, toDict, Json.fields?, Json.getOr, Json.get, lookup, hne]

variable (keys : List Int)

namespace Checkpoint

/-- The results in the order of the dictionary. -/
def resultEntries (c : Checkpoint) : List (Int × SavedResult) :=
  keys.filterMap fun sid => (c.stageResults sid).map (sid, ·)

theorem readResults_toDict (c : Checkpoint) : readResults (.obj (keys.filterMap fun sid =>
      (c.stageResults sid).map fun r => (toString sid, r.toDict))) =
      some (c.resultEntries keys) := by
  have hwr : (keys.filterMap fun sid =>
    (c.stageResults sid).map fun r => (toString sid, r.toDict)) =
    (c.resultEntries keys).map fun entry => (toString entry.1, entry.2.toDict) := by
    rw [resultEntries, map_filterMap]
    congr 1
    ext sid
    cases c.stageResults sid <;> rfl
  rw [hwr]
  apply entries?_obj
  rintro ⟨sid, r⟩
  simp [r.ofDict_toDict]

theorem lookup_filterMap (results : Int → Option SavedResult) (keys : List Int) (sid : Int) :
    (keys.filterMap fun key => (results key).map (key, ·)).lookup sid =
      if sid ∈ keys then results sid else none := by
  induction keys with
  | nil => rfl
  | cons key rest ih =>
    rw [filterMap_cons]
    by_cases hkey : sid = key
    · subst hkey
      cases hre : results sid with
      | none => simp [ih, hre]
      | some r => simp
    · cases hre : results key with
      | none => simp [ih, hkey]
      | some r =>
        have hbeq : (sid == key) = false := beq_eq_false_iff_ne.mpr hkey
        simp [ih, hkey, lookup_cons, hbeq]

variable {c : Checkpoint} {keys : List Int}

/-- Looking a stage up among the entries finds its result. -/
theorem lookup_resultEntries (hke : ∀ sid, (c.stageResults sid).isSome → sid ∈ keys) (sid : Int) :
    (c.resultEntries keys).reverse.lookup sid = c.stageResults sid := by
  rw [resultEntries, ← filterMap_reverse, lookup_filterMap]
  split
  · rfl
  · rename_i hmi
    rw [mem_reverse] at hmi
    exact (Option.not_isSome_iff_eq_none.mp (mt (hke sid) hmi)).symm

/-- The document of a checkpoint is read as the checkpoint. -/
theorem fromDict_toDict (hke : ∀ sid, (c.stageResults sid).isSome → sid ∈ keys) :
    fromDict (c.toDict keys) = some c := by
  have hre := readResults_toDict keys c
  have hcm : Json.items? Json.int? (.arr (c.completedStages.map .int)) =
      some c.completedStages := Json.items?_arr .int (fun _ => rfl) c.completedStages
  have hhi := Json.items?_arr _ DecisionRecord.ofDict_toDict c.decisionHistory
  have hev := Json.items?_arr _ RollbackEvent.ofDict_toDict c.rollbackEvents
  have hco := Json.option?_ofOption_str c.conversationId
  have hlo := funext (lookup_resultEntries hke)
  simp [fromDict, toDict, Json.getOr, Json.get, lookup, hre,
    hcm, hhi, hev, hco, hlo, -Int.toString_eq_repr]

end Checkpoint

/-! ## §3 What a state loses on the way -/

/-- `save` and, in another process, `load` and `restore_state`. -/
def saveAndRestore (s : WorkflowState) (decisionHistory : List DecisionRecord) :
    Option WorkflowState :=
  (fromDict ((ofState s decisionHistory).toDict keys)).map restoreState

/-- Two results agree in all that a run reads of a result. -/
structure StageResult.Same (r r' : StageResult) : Prop where
  status : r.status = r'.status
  outputs : r.outputs = r'.outputs
  artifacts : r.artifacts = r'.artifacts
  costUsd : r.costUsd = r'.costUsd
  error : r.error = r'.error
  runId : r.runId = r'.runId
  conversationId : r.conversationId = r'.conversationId
  decisionOutcome : r.decisionOutcome = r'.decisionOutcome
  decisionNextStage : r.decisionNextStage = r'.decisionNextStage

structure WorkflowState.Same (s s' : WorkflowState) : Prop where
  completedStages : s.completedStages = s'.completedStages
  stageStatuses : s.stageStatuses = s'.stageStatuses
  costAccumulatedUsd : s.costAccumulatedUsd = s'.costAccumulatedUsd
  rollbackEvents : s.rollbackEvents = s'.rollbackEvents
  stageResults : ∀ sid, Option.Rel StageResult.Same (s.stageResults sid) (s'.stageResults sid)

/-- No field of the result is left out of a checkpoint. -/
structure StageResult.Plain (r : StageResult) : Prop where
  runId : r.runId = none
  conversationId : r.conversationId = none
  decisionOutcome : r.decisionOutcome = none
  decisionNextStage : r.decisionNextStage = none

/-- The results have no field that a checkpoint leaves out, and the statuses are theirs. -/
structure WorkflowState.Plain (s : WorkflowState) : Prop where
  results : ∀ sid r, s.stageResults sid = some r → r.Plain
  statuses : ∀ sid, s.stageStatuses sid = (s.stageResults sid).map (·.status)

theorem StageResult.same_restored_iff (r : StageResult) (sid : Int) :
    r.Same (r.saved.restored sid) ↔ r.Plain := by
  constructor
  · intro h
    exact { h with }
  · intro h
    exact { h with status := rfl, outputs := rfl, artifacts := rfl, costUsd := rfl, error := rfl }

/-- The document carries all that the manager picked of the state. -/
theorem saveAndRestore_eq {keys : List Int} {s : WorkflowState}
    (hke : ∀ sid, (s.stageResults sid).isSome → sid ∈ keys)
    (decisionHistory : List DecisionRecord) : saveAndRestore keys s decisionHistory =
      some (ofState s decisionHistory).restoreState := by
  rw [saveAndRestore, fromDict_toDict]
  · rfl
  · intro sid hso
    apply hke
    rwa [ofState, Option.isSome_map] at hso

/-- What comes back is the state that was saved if and only if its results are plain and its
statuses are those of the results. -/
theorem saveAndRestore_same_iff {keys : List Int} {s : WorkflowState}
    (hkeys : ∀ sid, (s.stageResults sid).isSome → sid ∈ keys)
    (decisionHistory : List DecisionRecord) :
    (∃ s', saveAndRestore keys s decisionHistory = some s' ∧ s.Same s') ↔ s.Plain := by
  rw [saveAndRestore_eq hkeys]
  have hre : ∀ sid, (ofState s decisionHistory).restoreState.stageResults sid =
      (s.stageResults sid).map fun r => r.saved.restored sid := by
    intro sid
    simp [restoreState, ofState, comp_def]
  have hst : (ofState s decisionHistory).restoreState.stageStatuses =
      fun sid => (s.stageResults sid).map (·.status) := by
    ext sid
    simp [restoreState, ofState, comp_def, StageResult.saved]
  constructor
  · rintro ⟨s', hs', hsa⟩
    cases hs'
    constructor
    · intro sid r hr
      have hrel := hsa.stageResults sid
      rw [hre, hr] at hrel
      cases hrel with
      | some hr => exact (r.same_restored_iff sid).mp hr
    · intro sid
      exact congrFun (hsa.stageStatuses.trans hst) sid
  · intro hpl
    refine ⟨_, rfl, rfl, ?_, rfl, rfl, ?_⟩
    · rw [hst]
      exact funext hpl.statuses
    intro sid
    rw [hre]
    cases hr : s.stageResults sid with
    | none => exact .none
    | some r => exact .some ((r.same_restored_iff sid).mpr (hpl.results sid r hr))

/-- A state whose only stage, an action, is completed. -/
def afterAction : WorkflowState :=
  .markStageCompleted { workflowName := "release" } 1
    { stageId := 1, status := .completed, outputs := ["dist/app.whl"], costUsd := 1 / 2 }

theorem saveAndRestore_afterAction :
    ∃ s', saveAndRestore [1] afterAction [] = some s' ∧ afterAction.Same s' := by
  have hot : ∀ sid, sid ≠ 1 → afterAction.stageResults sid = none :=
    fun sid hne => update_of_ne hne _ _
  refine (saveAndRestore_same_iff ?_ []).mpr ⟨?_, ?_⟩
  · intro sid hso
    by_contra hne
    rw [hot sid (by simpa using hne)] at hso
    cases hso
  · intro sid r hr
    by_cases hsid : sid = 1
    · subst hsid
      cases hr
      exact ⟨rfl, rfl, rfl, rfl⟩
    · rw [hot sid hsid] at hr
      cases hr
  · intro sid
    by_cases hsid : sid = 1
    · subst hsid
      rfl
    · rw [hot sid hsid]
      exact update_of_ne hsid _ _

/-- One stage, a decision that is always answered with `ship`. -/
def shipSetup : Setup Unit where
  workflow := ⟨"ship", "1.0", [{ id := 1, name := "ship or hold", kind := .decision
                                 decisionOutcomes := [("ship", {}), ("hold", {})] }], by decide⟩
  stageRunner := some
    { run := fun _ _ _ => (.timedOut, ())
      runAction := fun _ _ _ => (.timedOut, ())
      runGate := fun _ _ _ => (.timedOut, ())
      runDecision := fun _ _ _ => (.returned { outcome := "ship" }, ()) }
  validateAll := fun _ _ => ([], ())
  restoreSnapshot := fun _ _ => (false, ())

def shipped : WorkflowState :=
  let started := (Engine.fresh shipSetup none ()).state.setStatus 1 .pending
  (started.markStageRunning 1).markStageCompleted 1
    { stageId := 1, status := .completed, decisionOutcome := some "ship" }

/-- The run ends in a state whose only result has a decision, and the decision does not come
back. -/
theorem saveAndRestore_shipped :
    (execute shipSetup 2 none (Engine.fresh shipSetup none ())).map (·.2.state) = some shipped ∧
      ∃ s', saveAndRestore [1] shipped [] = some s' ∧
        (shipped.stageResults 1).map (·.decisionOutcome) = some (some "ship") ∧
        (s'.stageResults 1).map (·.decisionOutcome) = some none := by
  refine ⟨rfl, _, saveAndRestore_eq ?_ [], rfl, rfl⟩
  intro sid hso
  by_contra hne
  have hno : shipped.stageResults sid = none := update_of_ne (by simpa using hne) _ _
  rw [hno] at hso
  cases hso

end Orchestratord.Workflow
