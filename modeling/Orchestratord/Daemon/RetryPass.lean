import Orchestratord.Daemon.Queue

/-! # What becomes of the retries that are due

`_process_retry_queue` takes the due items out of the queue and goes through them one by one. While
it waits for the tracker or for a launch, the rest of the daemon runs. An item is launched, put
back or dropped; what is asked for here is that none is dropped with its plan still in the
registry, and that a tracker that never reports an issue is not asked for ever. -/

namespace Orchestratord.Daemon

open Foundation List

namespace Orchestrator

/-- What the rest of the daemon does during an await. It may start and end sessions and write
records; retries leave the queue by a filter and come to its end. -/
structure Meanwhile where
  change : Orchestrator → Orchestrator := id
  keeps : RetryItem → Bool := fun _ => true
  added : List RetryItem := []

def Meanwhile.apply (m : Meanwhile) (d : Orchestrator) : Orchestrator :=
  { m.change d with retryQueue := d.retryQueue.filter m.keeps ++ m.added }

/-- What the tracker and the launch answer for an item, and what happens meanwhile. -/
structure Answer where
  fetched : Fetched
  fetching : Meanwhile := {}
  launching : Meanwhile := {}
  /-- An exception escapes `_launch_issue`. -/
  raises : Bool := false

inductive Fate where
  | launched
  /-- Put back because the tracker did not report the issue. -/
  | requeued
  /-- Put back because there is no free slot. -/
  | deferred
  /-- Put back because the launch was gated. -/
  | restored
  | dropped
  /-- Out of the queue when the processing ended with an exception. -/
  | lost
  deriving DecidableEq, Repr

/-- An item that is done with, and the daemon at the time. -/
structure Outcome where
  item : RetryItem
  fate : Fate
  after : Orchestrator

/-- The item is launched, in the queue again, or dropped together with its plan. -/
def Outcome.Accounted (o : Outcome) : Prop :=
  match o.fate with
  | .launched => o.after.isRunning o.item.dedupKey = true
  | .requeued | .deferred | .restored => ∃ item ∈ o.after.retryQueue, item.dedupKey = o.item.dedupKey
  | .dropped => o.after.registry.plan o.item.dedupKey = none
  | .lost => False

/-- The issue was put back because the tracker did not report it. -/
def Outcome.requeues (i : IssueId) (o : Outcome) : Bool := o.item.dedupKey = i ∧ o.fate = .requeued

/-- The processing of the queue: `ready` is what is left of the items that were due at `now`. -/
structure Processing where
  daemon : Orchestrator
  now : Nat := 0
  ready : List RetryItem := []
  log : List Outcome := []

namespace Processing

variable (cfg : Config) (p : Processing) (d : Orchestrator) (rest : List RetryItem)

def settle (item : RetryItem) (fate : Fate) : Processing :=
  { p with daemon := d, ready := rest, log := p.log ++ [⟨item, fate, d⟩] }

/-- The item's issue is launched. The running map tells a launch from one that was gated. -/
def launch (item : RetryItem) (a : Answer) : Processing :=
  let d := a.launching.apply { d with claimed := insert item.dedupKey d.claimed }
  if a.raises then
    { p with daemon := d, ready := [], log := p.log ++ (item :: rest).map (⟨·, .lost, d⟩) }
  else if d.isRunning item.dedupKey then
    p.settle { d with registry := d.registry.clearRetryPlan item.dedupKey } rest item .launched
  else p.settle { d with retryQueue := d.retryQueue ++ [item] } rest item .restored

/-- The body of the loop. -/
def next (a : Answer) : Processing :=
  match p.ready with
  | [] => p
  | item :: rest =>
    let d := p.daemon
    if d.isRunning item.dedupKey ∨ item.dedupKey ∈ d.completed then
      p.settle d rest item .dropped
    else if cfg.maxConcurrentAgents ≤ d.running.size then
      p.settle { d with retryQueue := d.retryQueue ++ [item] } rest item .deferred
    else
      let d := a.fetching.apply d
      match a.fetched with
      | .missing | .error =>
        p.settle (d.requeueRetry cfg p.now item) rest item
          (if retryRequeueLimit cfg < item.requeueCount + 1 then .dropped else .requeued)
      | .inactive =>
        p.settle { d with registry := d.registry.clearRetryPlan item.dedupKey } rest item .dropped
      | .active => p.launch d rest item a

inductive Turn where
  /-- A poll cycle turns to the queue. -/
  | tick (now : Nat)
  | next (answer : Answer)
  | meanwhile (m : Meanwhile)

def step : Turn → Processing
  | .tick now =>
    if p.ready = [] then
      let (ready, notReady) := splitReadyRetries p.daemon.retryQueue now
      { p with daemon := { p.daemon with retryQueue := notReady }, now, ready }
    else p
  | .next a => p.next cfg a
  | .meanwhile m => { p with daemon := m.apply p.daemon }

variable {p : Processing} {item : RetryItem} {rest : List RetryItem}

/-! ## Where an item gets lost -/

/-- An item whose issue is running or completed has no plan any more, and no launch raises. -/
def Orderly (p : Processing) : Turn → Prop
  | .next a => ∀ item ∈ p.ready.head?,
      if p.daemon.isRunning item.dedupKey ∨ item.dedupKey ∈ p.daemon.completed then
        p.daemon.registry.plan item.dedupKey = none
      else cfg.maxConcurrentAgents ≤ p.daemon.running.size ∨ a.fetched ≠ .active ∨ a.raises = false
  | _ => True

instance (p : Processing) (t : Turn) : Decidable (p.Orderly cfg t) := by
  unfold Orderly
  split <;> infer_instance

/-! ## How often an item is put back -/

/-- The retries that come to the queue with a turn. -/
def Turn.added : Turn → List RetryItem
  | .tick _ => []
  | .next a => a.fetching.added ++ a.launching.added
  | .meanwhile m => m.added

section Left

variable (i : IssueId) (item : RetryItem)

/-- How often the item can still be put back. -/
def leftOf : Nat :=
  if item.dedupKey = i then retryRequeueLimit cfg - item.requeueCount else 0

variable (items : List RetryItem)

def left : Nat := (items.map (leftOf cfg i)).sum

@[simp] theorem left_nil : left cfg i [] = 0 := rfl

@[simp] theorem left_cons : left cfg i (item :: items) = leftOf cfg i item + left cfg i items := by
  simp [left]

@[simp] theorem left_append (items more : List RetryItem) :
    left cfg i (items ++ more) = left cfg i items + left cfg i more := by
  simp [left]

theorem left_le (items : List RetryItem) :
    left cfg i items ≤ retryRequeueLimit cfg * waiting i items := by
  induction items with
  | nil => exact Nat.zero_le _
  | cons _ _ ih =>
    rw [waiting_cons, Nat.mul_add]
    refine Nat.add_le_add ?_ ih
    unfold leftOf
    split <;> simp

theorem left_filter_add (keeps : RetryItem → Bool) (items : List RetryItem) :
    left cfg i (items.filter (not ∘ keeps)) + left cfg i (items.filter keeps) =
      left cfg i items := by
  induction items with
  | nil => rfl
  | cons item => cases h : keeps item <;> simp [h] <;> omega

theorem left_apply_le (m : Meanwhile) (d : Orchestrator) :
    left cfg i (m.apply d).retryQueue ≤ left cfg i d.retryQueue + left cfg i m.added := by
  have hfi := left_filter_add cfg i m.keeps d.retryQueue
  simp only [Meanwhile.apply, left_append]
  omega

end Left

/-! ## One turn -/

/-- What a turn does with the first item: it is accounted for if and only if the turn is in order,
and putting it back takes one off what its issue has left. -/
structure Settles (p : Processing) (a : Answer) (o : Outcome) : Prop where
  accounted : o.Accounted ↔ p.Orderly cfg (.next a)
  left_le : ∀ i, (if o.requeues i then 1 else 0) + left cfg i o.after.retryQueue ≤
    left cfg i p.daemon.retryQueue + leftOf cfg i o.item + left cfg i (Turn.next a).added

variable {cfg} {a : Answer}

theorem settles_requeueRetry (hre : p.ready = item :: rest) (hft : a.fetched ≠ .active)
    (hid : ¬ (p.daemon.isRunning item.dedupKey ∨ item.dedupKey ∈ p.daemon.completed)) :
    Settles cfg p a ⟨item,
      if retryRequeueLimit cfg < item.requeueCount + 1 then .dropped else .requeued,
      (a.fetching.apply p.daemon).requeueRetry cfg p.now item⟩ := by
  have hfe := fun i => left_apply_le cfg i a.fetching p.daemon
  have hor : p.Orderly cfg (.next a) := by
    simp [Orderly, hre, hid, hft]
  unfold requeueRetry requeueRetryItem
  by_cases hli : retryRequeueLimit cfg < item.requeueCount + 1
  · refine ⟨iff_of_true ?_ hor, fun i => ?_⟩
    · simp [hli, Outcome.Accounted]
    have := hfe i
    simp only [hli, if_true, Outcome.requeues, reduceCtorEq, and_false, decide_false,
      if_false, Turn.added, left_append]
    omega
  · rw [if_neg hli, if_neg hli]
    refine ⟨iff_of_true ?_ hor, fun i => ?_⟩
    · exact ⟨_, mem_append_right _ mem_cons_self, rfl⟩
    have := hfe i
    simp only [Outcome.requeues, and_true, decide_eq_true_eq, Turn.added, left_append, left_cons,
      left_nil, leftOf]
    split <;> omega

/-- The exits of the loop. Only a launch that raises does more than settle the item. -/
theorem next_cases (cfg : Config) (hre : p.ready = item :: rest) (a : Answer) :
    (∃ fate d, p.next cfg a = p.settle d rest item fate ∧ Settles cfg p a ⟨item, fate, d⟩) ∨
    ∃ d, p.next cfg a =
        { p with daemon := d, ready := [], log := p.log ++ (item :: rest).map (⟨·, .lost, d⟩) } ∧
      Settles cfg p a ⟨item, .lost, d⟩ := by
  have hfe := fun i => left_apply_le cfg i a.fetching p.daemon
  simp only [next, hre]
  split
  case isTrue hdo =>
    refine .inl ⟨_, _, rfl, ?_, fun i => ?_⟩
    · simp [Orderly, hre, hdo, Outcome.Accounted]
    · simp [Outcome.requeues]
      omega
  case isFalse hid =>
    split
    case isTrue hfu =>
      refine .inl ⟨_, _, rfl, iff_of_true ?_ ?_, fun i => ?_⟩
      · exact ⟨item, mem_append_right _ mem_cons_self, rfl⟩
      · simp [Orderly, hre, hid, hfu]
      · simp [Outcome.requeues]
    case isFalse hfr =>
      cases hft : a.fetched with
      | missing | error => exact .inl ⟨_, _, rfl, settles_requeueRetry hre (by simp [hft]) hid⟩
      | inactive =>
        refine .inl ⟨_, _, rfl, iff_of_true ?_ ?_, fun i => ?_⟩
        · simp [Outcome.Accounted]
        · simp [Orderly, hre, hid, hft]
        · have := hfe i
          simp [Outcome.requeues, Turn.added]
          omega
      | active =>
        have hla : ∀ i, left cfg i (a.launching.apply { a.fetching.apply p.daemon with
            claimed := insert item.dedupKey (a.fetching.apply p.daemon).claimed }).retryQueue ≤
            left cfg i p.daemon.retryQueue + left cfg i (Turn.next a).added := by
          intro i
          refine (left_apply_le ..).trans ?_
          rw [Turn.added, left_append, ← Nat.add_assoc]
          exact Nat.add_le_add_right (hfe i) _
        have hor : p.Orderly cfg (.next a) ↔ a.raises = false := by
          simp [Orderly, hre, hid, hfr, hft]
        simp only [launch]
        generalize a.launching.apply _ = d at hla ⊢
        split
        case isTrue hra =>
          refine .inr ⟨_, rfl, iff_of_false id (by simp [hor, hra]), fun i => ?_⟩
          have := hla i
          simp [Outcome.requeues]
          omega
        case isFalse hra =>
          rw [Bool.not_eq_true, ← hor] at hra
          split
          case isTrue hru =>
            refine .inl ⟨_, _, rfl, iff_of_true hru hra, fun i => ?_⟩
            have := hla i
            simp [Outcome.requeues]
            omega
          · refine .inl ⟨_, _, rfl, iff_of_true ?_ hra, fun i => ?_⟩
            · exact ⟨item, mem_append_right _ mem_cons_self, rfl⟩
            · have := hla i
              simp [Outcome.requeues]
              omega

theorem accounted_step_iff (p : Processing) (t : Turn) :
    (∀ o ∈ (p.step cfg t).log, o.Accounted) ↔ (∀ o ∈ p.log, o.Accounted) ∧ p.Orderly cfg t := by
  cases t with
  | tick =>
    dsimp only [step]
    split <;> exact (and_iff_left trivial).symm
  | meanwhile => exact (and_iff_left trivial).symm
  | next a =>
    change (∀ o ∈ (p.next cfg a).log, o.Accounted) ↔ _
    rcases hre : p.ready with _ | _
    · simp [next, Orderly, hre]
    rcases next_cases cfg hre a with ⟨fate, d, heq, h⟩ | ⟨d, heq, h⟩
    · rw [heq, ← h.accounted, settle, forall_mem_append, forall_mem_singleton]
    · rw [heq, ← h.accounted, forall_mem_append, map_cons, forall_mem_cons]
      exact and_congr_right fun _ => and_iff_left_of_imp False.elim

/-- What was put back and what can still be put back. -/
def total (cfg : Config) (i : IssueId) (p : Processing) : Nat :=
  p.log.countP (·.requeues i) + left cfg i p.daemon.retryQueue + left cfg i p.ready

theorem total_step_le (cfg : Config) (i : IssueId) (p : Processing) (t : Turn) :
    total cfg i (p.step cfg t) ≤ total cfg i p + left cfg i t.added := by
  unfold total
  cases t with
  | tick now =>
    have hsp := left_filter_add cfg i (·.isReady now) p.daemon.retryQueue
    dsimp only [step]
    split
    · simp only [splitReadyRetries, partition_eq_filter_filter]
      omega
    · exact Nat.le_add_right _ _
  | meanwhile m =>
    have := left_apply_le cfg i m p.daemon
    simp only [step, Turn.added]
    omega
  | next a =>
    simp only [step]
    rcases hre : p.ready with _ | ⟨item, rest⟩
    · simp [next, hre]
    rw [left_cons]
    rcases next_cases cfg hre a with ⟨fate, d, heq, h⟩ | ⟨d, heq, h⟩
    · have := h.left_le i
      simp only [heq, settle, countP_append, countP_singleton]
      dsimp only at this
      omega
    · have := h.left_le i
      have hlo : ((item :: rest).map (⟨·, .lost, d⟩)).countP (Outcome.requeues i) = 0 := by
        simp [Outcome.requeues]
      simp only [heq, countP_append, hlo, left_nil]
      dsimp only at this
      omega

/-! ## Whole runs -/

theorem accounted_run_iff (turns : List Turn) (p : Processing) :
    (∀ o ∈ (runFrom (step cfg) p turns).log, o.Accounted) ↔
      (∀ o ∈ p.log, o.Accounted) ∧ Guarded (step cfg) (Orderly cfg) p turns := by
  induction turns generalizing p with
  | nil => exact (and_iff_left trivial).symm
  | cons _ _ ih =>
    rw [runFrom_cons, ih, accounted_step_iff, and_assoc]
    rfl

theorem total_run_le (cfg : Config) (i : IssueId) (turns : List Turn) (p : Processing) :
    total cfg i (runFrom (step cfg) p turns) ≤
      total cfg i p + left cfg i (turns.flatMap Turn.added) := by
  induction turns generalizing p with
  | nil => exact Nat.le_add_right _ _
  | cons t _ ih =>
    have hst := total_step_le cfg i p t
    have hre := ih (p.step cfg t)
    rw [runFrom_cons, flatMap_cons, left_append]
    omega

/-- Over every run of the processing, whatever the tracker answers, the launches do and the rest
of the daemon does meanwhile: each item that was taken from the queue is launched, put back, or
dropped together with its plan, and an issue that the tracker does not report is put back at most
as often as the limit says for each of its items, if and only if no item is met whose issue is
running or completed and still has a plan, and no launch raises. -/
theorem retries_accounted_iff (cfg : Config) (d : Orchestrator) (turns : List Turn) :
    ((∀ o ∈ (runFrom (step cfg) { daemon := d } turns).log, o.Accounted) ∧
      ∀ i, (runFrom (step cfg) { daemon := d } turns).log.countP (·.requeues i) ≤
        retryRequeueLimit cfg * waiting i (d.retryQueue ++ turns.flatMap Turn.added)) ↔
    Guarded (step cfg) (Orderly cfg) { daemon := d } turns := by
  rw [and_iff_left, accounted_run_iff]
  · exact and_iff_right nofun
  intro i
  have hrun := total_run_le cfg i turns { daemon := d }
  have hle := left_le cfg i (d.retryQueue ++ turns.flatMap Turn.added)
  simp only [left_append, total, countP_nil, left_nil] at hle hrun
  omega

/-- A pass over one retry, which is due and whose issue the tracker reports as active. -/
def onePass (completed : Finset IssueId) (raises : Bool) : Processing :=
  runFrom (step {})
    { daemon := {
        registry := Dict.empty.set "7" { status := .failed, nextRetryAt := some 0 }
        completed
        retryQueue := [{ dedupKey := "7", scheduledAt := 0 }] } }
    [.tick 1, .next { fetched := .active, raises }]

/-- The issue is completed: its retry is gone and the plan is not. The launch raises: the retry is
gone with the processing. -/
theorem onePass_unaccounted : ((onePass {"7"} false).log.map (·.fate) = [.dropped] ∧
      (onePass {"7"} false).daemon.registry.plan "7" = some 0 ∧
      ¬ ∀ o ∈ (onePass {"7"} false).log, o.Accounted) ∧
    ((onePass ∅ true).log.map (·.fate) = [.lost] ∧ (onePass ∅ true).daemon.retryQueue = [] ∧
      ¬ ∀ o ∈ (onePass ∅ true).log, o.Accounted) := by
  refine ⟨⟨by decide +kernel, by decide +kernel, ?_⟩, ⟨by decide +kernel, by decide +kernel, ?_⟩⟩
  all_goals
    rw [onePass, accounted_run_iff]
    exact fun h => absurd h.2 (by decide +kernel)

end Processing

end Orchestrator

end Orchestratord.Daemon
