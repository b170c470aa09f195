import Orchestratord.Foundation.Sweep
import Orchestratord.Planner.Waves

/-! # Judging an execution

The coordinator reports how each task of the plan ended and when it ran. The report is accepted if
all tasks are completed, none started before its dependencies had ended, and at no time too many
ran at once. -/

namespace Orchestratord.Planner

open Foundation List

/-- A time that is not a finite number is `none`. -/
structure Report (T : Type) where
  completed : Bool
  evidence : Bool
  startedAt : Option T
  completedAt : Option T
  deriving DecidableEq

/-- An evidence file with the time of its last write. A field that it does not have is `none`. -/
structure EvidenceRow (ι T : Type) where
  id : ι
  completed : Option Bool
  evidence : Option Bool
  recordedAt : T

structure Execution (ι T : Type) where
  rows : List (ι × Report T)
  files : ι → Option (EvidenceRow ι T) := fun _ => none

inductive Refusal (ι : Type) where
  | wrongIds
  | wrongFile (id : ι)
  | notCompleted (id : ι)
  | noEvidence (id : ι)
  | invalidTime (id : ι)
  | backwards (id : ι)
  | unknown (dependency : ι)
  | early (id dependency : ι)
  | parallelism (peak : ℤ)

variable {ι τ T : Type} [DecidableEq ι] [LinearOrder T]

def idsOf (subtasks : List (Subtask ι τ)) : List ι := (subtasks.map Subtask.id).dedup

namespace Execution

variable (x : Execution ι T) (i : ι)

/-- The times that a worker claims give way to that of its file. -/
def loadTaskExecutionRow : Option (Report T) :=
  (x.rows.lookup i).bind fun row =>
    match x.files i with
    | none => some row
    | some file =>
      if file.id ≠ i then none
      else some ⟨file.completed.getD row.completed, file.evidence.getD row.evidence,
        some file.recordedAt, some file.recordedAt⟩

/-- The time in which a task ran. -/
def interval : Except (Refusal ι) (T × T) :=
  match x.loadTaskExecutionRow i with
  | none => .error (.wrongFile i)
  | some row =>
    if ! row.completed then .error (.notCompleted i)
    else if ! row.evidence then .error (.noEvidence i)
    else
      match row.startedAt, row.completedAt with
      | some s, some e => if e < s then .error (.backwards i) else .ok (s, e)
      | _, _ => .error (.invalidTime i)

def checkRow : Option (Refusal ι) :=
  match x.interval i with
  | .error refusal => some refusal
  | .ok _ => none

def checkDependency (i d : ι) : Option (Refusal ι) :=
  match x.interval i, x.interval d with
  | .ok (s, _), .ok (_, e) => if s < e then some (.early i d) else none
  | _, _ => some (.unknown d)

def events (ids : List ι) : List (T × ℤ) :=
  ids.flatMap fun i =>
    match x.interval i with
    | .ok (s, e) => [(s, 1), (e, -1)]
    | .error _ => []

/-- `none` if it is accepted. The rows have to be those of the tasks, one for each id. -/
def validateTaskExecution (subtasks : List (Subtask ι τ)) (maxParallel : ℤ) : Option (Refusal ι) :=
  if ¬ (x.rows.map Prod.fst).Perm (idsOf subtasks) then some .wrongIds
  else
    (subtasks.findSome? (x.checkRow ·.id)).or
      ((subtasks.findSome? fun task => task.dependsOn.findSome? (x.checkDependency task.id)).or
        (let peak := (sweep (0, 0) (sortEvents (x.events (idsOf subtasks)))).2
        if maxParallel < peak then some (.parallelism peak) else none))

variable (subtasks : List (Subtask ι τ)) (started ended : ι → T)

/-- All tasks are completed with evidence, and these are their times. -/
structure Reported : Prop where
  ids : (x.rows.map Prod.fst).Perm (idsOf subtasks)
  rows : ∀ i ∈ idsOf subtasks,
    x.loadTaskExecutionRow i = some ⟨true, true, some (started i), some (ended i)⟩
  forward : ∀ i ∈ idsOf subtasks, started i ≤ ended i

namespace Reported

variable {x subtasks started ended} (h : x.Reported subtasks started ended) {i d : ι}
include h

theorem interval_eq (hi : i ∈ idsOf subtasks) : x.interval i = .ok (started i, ended i) := by
  simp [interval, h.rows i hi, h.forward i hi]

theorem checkDependency_iff (hi : i ∈ idsOf subtasks) :
    x.checkDependency i d = none ↔ d ∈ idsOf subtasks ∧ ended d ≤ started i := by
  by_cases hd : d ∈ idsOf subtasks
  · simp [checkDependency, h.interval_eq hi, h.interval_eq hd, hd]
  have hno : x.rows.lookup d = none := by
    refine lookup_eq_none_iff.mpr fun row hro => bne_iff_ne.mpr ?_
    rintro rfl
    exact hd (h.ids.subset (mem_map_of_mem hro))
  simp [checkDependency, interval, loadTaskExecutionRow, hno, hd]

/-- The level of the events is the number of tasks that run. -/
theorem level_events {ids : List ι} (hids : ids ⊆ idsOf subtasks) (t : T) :
    level (x.events ids) t = ids.countP fun i => started i ≤ t ∧ t < ended i := by
  rw [← level_intervals fun i hi => h.forward i (hids hi), events]
  congr 1
  exact flatMap_congr fun i hi => by simp [h.interval_eq (hids hi)]

end Reported

/-- A report is accepted exactly if no task started before all of its dependencies had ended, and
at no time more tasks than allowed ran. -/
theorem validateTaskExecution_accepts_iff [Nonempty T]
    (h : x.Reported subtasks started ended) (maxParallel : ℤ) :
    x.validateTaskExecution subtasks maxParallel = none ↔ (∀ task ∈ subtasks, ∀ d ∈ task.dependsOn,
        d ∈ idsOf subtasks ∧ ended d ≤ started task.id) ∧
      ∀ t, ((idsOf subtasks).countP fun i => started i ≤ t ∧ t < ended i) ≤ maxParallel := by
  have hid {task : Subtask ι τ} (ht : task ∈ subtasks) : task.id ∈ idsOf subtasks :=
    mem_dedup.mpr (mem_map_of_mem ht)
  have hde : (∀ task ∈ subtasks, ∀ d ∈ task.dependsOn, x.checkDependency task.id d = none) ↔
      ∀ task ∈ subtasks, ∀ d ∈ task.dependsOn, d ∈ idsOf subtasks ∧ ended d ≤ started task.id :=
    forall₂_congr fun task ht => forall₂_congr fun d _ => h.checkDependency_iff (hid ht)
  have hro : ∀ task ∈ subtasks, x.checkRow task.id = none := fun task ht => by
    rw [checkRow, h.interval_eq (hid ht)]
  have hpe := h.ids
  simp only [validateTaskExecution, hpe, not_true_eq_false, if_false, Option.or_eq_none_iff, hde,
    findSome?_eq_none_iff, ite_eq_right_iff, reduceCtorEq, imp_false, not_lt, peak_le_iff,
    h.level_events (Subset.refl _)]
  refine ⟨fun hall => ⟨hall.2.1, hall.2.2.2⟩, fun hall => ⟨hro, hall.1, ?_, hall.2⟩⟩
  obtain ⟨t⟩ := ‹Nonempty T›
  exact (Int.natCast_nonneg _).trans (hall.2 t)

/-- The workers have left their files, that of the last task after the others. -/
def recorded : Execution String ℤ where
  rows := ["a", "b", "c"].map fun i => (i, ⟨false, false, none, none⟩)
  files i := some ⟨i, some true, some true, if i = "c" then 1 else 0⟩

theorem recorded_accepted : recorded.validateTaskExecution fanIn 2 = none := by
  refine (validateTaskExecution_accepts_iff recorded fanIn (if · = "c" then 1 else 0)
    (if · = "c" then 1 else 0) ⟨by decide, by decide, fun _ _ => le_rfl⟩ 2).mpr ⟨by decide, ?_⟩
  intro t
  rw [countP_eq_zero.mpr fun i _ => by simp]
  decide

end Execution

end Orchestratord.Planner
