import Orchestratord.Planner.Waves

/-! # Runs of a swarm

A run writes its plan, clears the evidence of earlier runs and hands over to the coordinator, whose
workers leave evidence files. When it ends, the evidence of a completed run is copied into the plan
and the last completed wave is noted for the next run. -/

namespace Orchestratord.Planner

open List

structure TaskPlan (ι τ : Type) where
  goal : String
  subtasks : List (Subtask ι τ)
  waves : List (List ι)
  maxParallel : ℕ

abbrev Plan := TaskPlan String String

/-- A plan file: the plan, and the status of its tasks. -/
structure PlanFile where
  plan : Plan
  status : String → String := fun _ => "pending"

/-- A file without an id is not read. -/
structure EvidenceFile where
  id : String
  status : Option String

structure Workspace where
  taskDecomposition : Option PlanFile := none
  lastCompletedWave : Option ℤ := none
  taskEvidence : List EvidenceFile := []

/-- A prompt of a swarm names every task of its plan. -/
inductive Prompt where
  | text (text : String)
  | swarm (plan : Plan)

structure Session where
  promptOverride : Option Prompt
  runKind : String

inductive Raised where
  | attributeError (name : String)
  | verificationFailed
  | coordinator

/-- How the coordinator ends; its workers have left evidence. -/
inductive Ending where
  /-- The daemon is killed. -/
  | killed (evidence : List EvidenceFile)
  | raises (evidence : List EvidenceFile)
  | returns (evidence : List EvidenceFile) (completed valid : Bool)

variable (w : Workspace)

/-- The checkpoint is read only beside a plan. A runner has no `max_parallel` (its decomposer has),
and the default of `payload.get` is evaluated in any case: no later line is reached. -/
def resolveOrResume : Except Raised (Option Plan) :=
  match w.taskDecomposition, w.lastCompletedWave with
  | some _, some completedWave =>
    if completedWave < 0 then .ok none else .error (.attributeError "max_parallel")
  | _, _ => .ok none

def PlanFile.fill (file : PlanFile) (ev : EvidenceFile) : PlanFile :=
  if ev.id ∈ file.plan.subtasks.map Subtask.id then
    let status := ev.status.getD (file.status ev.id)
    { file with status := Function.update file.status ev.id status }
  else file

def backfillEvidence : Workspace :=
  { w with taskDecomposition := w.taskDecomposition.map (w.taskEvidence.foldl PlanFile.fill ·) }

def writeCheckpoint (plan : Plan) (w : Workspace) : Workspace :=
  match w.taskDecomposition with
  | none => w
  | some file =>
    let done := plan.waves.takeWhile fun wave => wave.all (file.status · = "completed")
    { w with lastCompletedWave := some (done.length - 1) }

/-- The workspace and the session when the coordinator starts, and the plan. -/
def prepare (decomposed : Plan) : Except Raised (Workspace × Plan) :=
  (resolveOrResume w).map fun
    | some plan => ({ w with taskEvidence := [] }, plan)
    | none => ({ w with taskDecomposition := some { plan := decomposed }, taskEvidence := [] },
        decomposed)

structure Outcome where
  workspace : Workspace
  /-- A killed daemon has no session. -/
  session : Option Session
  raised : Option Raised

def run (session : Session) (decomposed : Plan) (ending : Ending) : Outcome :=
  match prepare w decomposed with
  | .error e => ⟨w, some session, some e⟩
  | .ok (w, plan) =>
    let original := session
    let session := { session with promptOverride := some (.swarm plan), runKind := "swarm" }
    let restored :=
      { session with promptOverride := original.promptOverride, runKind := original.runKind }
    match ending with
    | .killed evidence => ⟨{ w with taskEvidence := evidence }, none, none⟩
    | .raises evidence =>
      ⟨writeCheckpoint plan { w with taskEvidence := evidence }, some restored, some .coordinator⟩
    | .returns evidence completed valid =>
      let w := { w with taskEvidence := evidence }
      let (w, raised) := if ! completed then (w, none)
        else if valid then (backfillEvidence w, none) else (w, some .verificationFailed)
      ⟨writeCheckpoint plan w, some restored, raised⟩

/-- Completion evidence is recorded in the plan or in a file of its own. -/
def Recorded (id : String) : Prop :=
  (∃ file ∈ w.taskDecomposition, file.status id = "completed") ∨
    ⟨id, some "completed"⟩ ∈ w.taskEvidence

variable (plan : Plan) (k : ℕ)

/-- All tasks of the waves up to `k` have recorded evidence. -/
def DoneThrough : Prop := ∀ wave ∈ plan.waves.take (k + 1), ∀ id ∈ wave, Recorded w id

/-- The next run has something to resume. -/
def Resumable : Prop :=
  (∃ file ∈ w.taskDecomposition, file.plan = plan) ∧ k < plan.waves.length ∧ DoneThrough w plan k

/-- The next run goes on with the plan, and what is recorded of these waves is still there when
the coordinator starts. -/
def Resumes : Prop :=
  resolveOrResume w = .ok (some plan) ∧
    ∀ decomposed w', prepare w decomposed = .ok (w', plan) → DoneThrough w' plan k

/-- What the run was asked with is restored in every case. But no run resumes a plan: the promise
holds only where there is nothing to resume. -/
theorem resumes_iff (w : Workspace) : ((∀ plan k, Resumable w plan k → Resumes w plan k) ∧
      ∀ session decomposed ending, ∀ after ∈ (run w session decomposed ending).session,
        after = session) ↔ ∀ plan k, ¬ Resumable w plan k := by
  have hno (plan : Plan) : resolveOrResume w ≠ .ok (some plan) := by
    unfold resolveOrResume
    split
    · split <;> nofun
    · nofun
  constructor
  · rintro ⟨h, -⟩ plan k hre
    exact hno plan (h plan k hre).1
  intro h
  refine ⟨fun plan k hre => absurd hre (h plan k), ?_⟩
  intro _ _ ending _ hafter
  unfold run at hafter
  split at hafter
  · exact (Option.some.inj hafter).symm
  · cases ending with
    | killed => cases hafter
    | raises | returns => exact (Option.some.inj hafter).symm

def onePlan : Plan := ⟨"g", [⟨"t1", "", "", [], "", []⟩], [["t1"]], 3⟩

/-- A run completes its only wave, and the next run of the issue raises. -/
theorem nothing_resumed : let evidence : List EvidenceFile := [⟨"t1", some "completed"⟩]
    let w := (run {} ⟨none, "issue"⟩ onePlan (.returns evidence true true)).workspace
    Resumable w onePlan 0 ∧ ¬ Resumes w onePlan 0 ∧
      resolveOrResume w = .error (.attributeError "max_parallel") := by
  intro _ w
  refine ⟨⟨⟨_, rfl, rfl⟩, by decide, ?_⟩, nofun, rfl⟩
  intro _ hwave _ hid
  obtain rfl := eq_of_mem_singleton hwave
  obtain rfl := eq_of_mem_singleton hid
  exact .inl ⟨_, rfl, rfl⟩

end Orchestratord.Planner
