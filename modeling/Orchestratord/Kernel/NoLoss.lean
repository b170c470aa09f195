import Orchestratord.Kernel.Slots

/-! # Work that is owed

An item whose outcome is a retry or that is spawned is owed an execution. It stays in a queue of
the kernel as long as no tick takes it out without dispatching it; the conditions under which a
tick dispatches all it takes are collected in `Admits`. -/

namespace Orchestratord.Kernel

open Foundation
open Daemon (RetryItem)
open OrchestrationKernel List Event Dict

variable {β : Type}

/-! ## §1 The loop of a tick -/

variable {k : OrchestrationKernel β} {x item : WorkItem β}

namespace OrchestrationKernel

/-- The key can be dispatched, if there is room. -/
def admissible (k : OrchestrationKernel β) (item : WorkItem β) : Bool :=
  item.dedupKey ≠ "" ∧ k.running.get item.dedupKey = none ∧ item.dedupKey ∉ k.completed

/-- The slots suffice for every item that can be dispatched. -/
def Room (k : OrchestrationKernel β) (items : List (WorkItem β)) : Prop :=
  k.running.size + items.countP k.admissible ≤ k.maxConcurrentAgents

theorem rejection_eq_none_iff_admissible : k.rejection item = none ↔
    k.admissible item ∧ k.running.size < k.maxConcurrentAgents := by
  rw [rejection_eq_none, admissible, decide_eq_true_iff]

theorem admissible_accept (hkey : x.dedupKey ≠ item.dedupKey) :
    (k.accept item).admissible x = k.admissible x := by
  simp [admissible, accept, hkey]

theorem admissible_of_accept (h : (k.accept item).admissible x) : k.admissible x := by
  by_cases hkey : x.dedupKey = item.dedupKey
  · simp [admissible, accept, hkey] at h
  · rwa [admissible_accept hkey] at h

variable {rest : List (WorkItem β)}

theorem Room.accept (hro : k.Room (item :: rest))
    (hok : k.rejection item = none) : (k.accept item).Room rest := by
  obtain ⟨hadm, -⟩ := rejection_eq_none_iff_admissible.mp hok
  have hfr : k.running.get item.dedupKey = none := (rejection_eq_none.mp hok).1.2.1
  have hsi : (k.accept item).running.size = k.running.size + 1 := size_set_of_none _ _ hfr
  have hfe : rest.countP (k.accept item).admissible ≤ rest.countP k.admissible :=
    countP_mono_left fun y _ hy => admissible_of_accept hy
  have hco : (item :: rest).countP k.admissible = rest.countP k.admissible + 1 :=
    countP_cons_of_pos hadm
  unfold Room at hro ⊢
  rw [show (k.accept item).maxConcurrentAgents = k.maxConcurrentAgents from rfl]
  omega

theorem Room.tail (hro : k.Room (item :: rest)) : k.Room rest := by
  have hfe : rest.countP k.admissible ≤ (item :: rest).countP k.admissible :=
    (sublist_cons_self item rest).countP_le
  unfold Room at hro ⊢
  omega

/-- The loop appends the items it has made tasks for to the log, and leaves the queues. -/
theorem dispatch_log (reject : WorkItem β → Reply) (items : List (WorkItem β)) :
    ∃ accepted : List (WorkItem β),
      (k.dispatch reject items).log = k.log ++ accepted.map .executed ∧
      (k.dispatch reject items).retryQueue = k.retryQueue ∧
      (k.dispatch reject items).retryItems = k.retryItems ∧
      (k.dispatch reject items).spawnQueue = k.spawnQueue := by
  induction items generalizing k with
  | nil => exact ⟨[], by simp [dispatch]⟩
  | cons item _ ih =>
    unfold dispatch
    split
    · obtain ⟨accepted, hlog, hqu⟩ := ih
      exact ⟨item :: accepted, hlog.trans (by simp [accept]), hqu⟩
    · split
      · exact ih
      all_goals exact ⟨[], by simp⟩

/-! ## §2 The beginning of a tick -/

variable {ready : List RetryItem} {items : Dict String (WorkItem β)}

theorem get_takeReady {key : String} (hkey : ∀ retry ∈ ready, retry.dedupKey ≠ key) :
    (takeReady ready items).2.get key = items.get key := by
  induction ready generalizing items with
  | nil => rfl
  | cons retry rest ih =>
    have hne : key ≠ retry.dedupKey := (hkey retry mem_cons_self).symm
    have hre : ∀ r ∈ rest, r.dedupKey ≠ key := fun r hr => hkey r (mem_cons_of_mem retry hr)
    exact (ih hre).trans (get_erase_ne _ hne)

theorem mem_takeReady (hre : ∃ retry ∈ ready, retry.dedupKey = x.dedupKey)
    (hx : items.get x.dedupKey = some x) : x ∈ (takeReady ready items).1 := by
  induction ready generalizing items with
  | nil =>
    obtain ⟨_, hmem, _⟩ := hre
    cases hmem
  | cons retry rest ih =>
    apply mem_append.mpr
    by_cases hkey : retry.dedupKey = x.dedupKey
    · left
      simp [hkey, hx]
    right
    obtain ⟨other, hmem, hot⟩ := hre
    have hrs : other ∈ rest := (mem_cons.mp hmem).resolve_left fun h =>
      hkey (h ▸ hot)
    exact ih ⟨other, hrs, hot⟩ (by rw [get_erase_ne _ (symm hkey), hx])

/-- The item waits for a retry. -/
def Retrying (k : OrchestrationKernel β) (x : WorkItem β) : Prop :=
  (∃ retry ∈ k.retryQueue, retry.dedupKey = x.dedupKey) ∧ k.retryItems.get x.dedupKey = some x

/-- The items of the retries that are ready. -/
def readyItems (k : OrchestrationKernel β) (now : ℕ) : List (WorkItem β) :=
  (takeReady (k.retryQueue.partition (·.isReady now)).1 k.retryItems).1

/-- The kernel without them. -/
def withoutReady (k : OrchestrationKernel β) (now : ℕ) : OrchestrationKernel β :=
  { k with
    retryQueue := (k.retryQueue.partition (·.isReady now)).2
    retryItems := (takeReady (k.retryQueue.partition (·.isReady now)).1 k.retryItems).2 }

/-- A retry is ready, and its item is taken, or it waits on. -/
theorem Retrying.ready_or_waits (h : k.Retrying x) (now : ℕ) :
    x ∈ k.readyItems now ∨ (k.withoutReady now).Retrying x := by
  obtain ⟨⟨retry, hmem, hkey⟩, hx⟩ := h
  rw [readyItems, withoutReady, partition_eq_filter_filter]
  by_cases hre : ∃ r ∈ k.retryQueue.filter (·.isReady now), r.dedupKey = x.dedupKey
  · exact .inl (mem_takeReady hre hx)
  right
  refine ⟨⟨retry, mem_filter.mpr ⟨hmem, ?_⟩, hkey⟩, ?_⟩
  · have hnot : ¬ retry.isReady now := fun hr =>
    hre ⟨retry, mem_filter.mpr ⟨hmem, hr⟩, hkey⟩
    simpa using hnot
  · rw [get_takeReady fun r hr hrk => hre ⟨r, hr, hrk⟩, hx]

end OrchestrationKernel

/-! ## §3 What is owed -/

variable [DecidableEq β]

def Event.owes (x : WorkItem β) : Event β → Bool
  | .owed item => item = x
  | .executed _ => false

def Event.executes (x : WorkItem β) : Event β → Bool
  | .owed _ => false
  | .executed item => item = x

/-- The last that happened to the item is that it was to be executed again. -/
def isOwed (x : WorkItem β) (log : List (Event β)) : Bool := latched (owes x) (executes x) log

theorem isOwed_append_owed (x item : WorkItem β) (log : List (Event β)) :
    isOwed x (log ++ [.owed item]) ↔ isOwed x log ∨ item = x := by
  rw [isOwed, latched_concat]
  simp [owes, executes, isOwed, or_comm]

theorem isOwed_append_executed (x : WorkItem β) (log : List (Event β)) (items : List (WorkItem β)) :
    isOwed x (log ++ items.map .executed) ↔ isOwed x log ∧ x ∉ items := by
  induction items generalizing log with
  | nil => simp
  | cons item rest ih =>
    have hsp : log ++ (item :: rest).map .executed
        = (log ++ [.executed item]) ++ rest.map .executed := by simp
    have hone : isOwed x (log ++ [.executed item]) ↔ isOwed x log ∧ item ≠ x := by
      rw [isOwed, latched_concat]
      simp [owes, executes, isOwed]
    rw [hsp, ih, hone, mem_cons, not_or, and_assoc, ne_comm]

namespace OrchestrationKernel

def Present (k : OrchestrationKernel β) (x : WorkItem β) : Prop :=
  k.Retrying x ∨ x ∈ k.spawnQueue ∨ k.running.get x.dedupKey = some x

instance (x : WorkItem β) : Decidable (k.Present x) :=
  inferInstanceAs (Decidable ((_ ∧ _) ∨ _ ∨ _))

/-- No work is lost. -/
def NoLoss (k : OrchestrationKernel β) : Prop := ∀ x, isOwed x k.log → k.Present x

/-- What is owed is in a queue. The running set is no safe place: the key leaves it when the run
that owes the retry has ended. -/
def Queued (k : OrchestrationKernel β) : Prop :=
  ∀ x, isOwed x k.log → k.Retrying x ∨ x ∈ k.spawnQueue

theorem Queued.noLoss (h : k.Queued) : k.NoLoss := fun x hx =>
  (h x hx).elim .inl fun hsp => .inr (.inl hsp)

/-- With room for all, an item that can be dispatched and shares its key with no other item is
dispatched. -/
theorem not_isOwed_dispatch (reject : WorkItem β → Reply) {items : List (WorkItem β)}
    (hx : x ∈ items) (hadm : k.admissible x) (hal : ∀ y ∈ items, y.dedupKey = x.dedupKey → y = x)
    (hro : k.Room items) (han : ∀ y ∈ items, reject y = .done) :
    ¬ isOwed x (k.dispatch reject items).log := by
  induction items generalizing k with
  | nil => cases hx
  | cons item rest ih =>
    by_cases him : item = x
    · subst him
      have hsl : k.running.size < k.maxConcurrentAgents := by
        have hco := countP_cons_of_pos (l := rest) hadm
        unfold Room at hro
        omega
      have hok : k.rejection item = none := rejection_eq_none_iff_admissible.mpr ⟨hadm, hsl⟩
      obtain ⟨accepted, hlog, -⟩ := dispatch_log reject rest
      rw [dispatch, hok]
      rw [hlog, isOwed_append_executed]
      intro how
      have hnow : isOwed item (k.log ++ [item].map .executed) := how.1
      rw [isOwed_append_executed] at hnow
      exact hnow.2 mem_cons_self
    · have hre : x ∈ rest := (mem_cons.mp hx).resolve_left (Ne.symm him)
      have hal' : ∀ y ∈ rest, y.dedupKey = x.dedupKey → y = x := fun y hy =>
        hal y (mem_cons_of_mem item hy)
      have han' : ∀ y ∈ rest, reject y = .done := fun y hy =>
        han y (mem_cons_of_mem item hy)
      rw [dispatch]
      split
      case h_1 hok =>
        have hkey : x.dedupKey ≠ item.dedupKey := fun h =>
          him (hal item mem_cons_self h.symm)
        exact ih hre (by rwa [admissible_accept hkey]) hal' (hro.accept hok) han'
      · rw [han item mem_cons_self]
        exact ih hre hadm hal' hro.tail han'

/-! ## §4 Ticks that dispatch what they take -/

/-- A tick with these items dispatches `x`: the key is free, no other item has it, the slots
suffice for the whole tick, and a rejection is answered without waiting. -/
structure Admits (k : OrchestrationKernel β) (hand items : List (WorkItem β))
    (reject : WorkItem β → Reply) (x : WorkItem β) : Prop where
  admissible : k.admissible x
  alone : ∀ y ∈ hand ++ items, y.dedupKey = x.dedupKey → y = x
  room : k.Room (hand ++ items)
  answers : ∀ y ∈ hand ++ items, reject y = .done

/-- The retry of the item displaces no other item that is owed. -/
def KeepsRetries (k : OrchestrationKernel β) (item : WorkItem β) : Prop :=
  ∀ old, k.retryItems.get item.dedupKey = some old → isOwed old k.log → old = item

/-- The condition on a step. -/
def Careful (k : OrchestrationKernel β) : Input β → Prop
  | .tick now (.returns items) reject =>
    k.tick = none → ∀ x ∈ k.spawnQueue ++ k.readyItems now, isOwed x k.log →
      k.Admits (k.spawnQueue ++ k.readyItems now) items reject x
  -- while the poll is awaited the items of ready retries are in no queue
  | .tick now .waits _ | .tick now .raises _ =>
    k.tick = none → ∀ x ∈ k.readyItems now, ¬ isOwed x k.log
  | .polled (some items) reject =>
    ∀ hand, k.tick = some (.polling hand) →
      -- nothing was spawned since the tick read the queue
      (∀ x ∈ k.spawnQueue, isOwed x k.log → x ∈ hand) ∧
      ∀ x ∈ hand, isOwed x k.log → k.Admits hand items reject x
  | .task id (.interpreted (.retry _) _) => ∀ item, k.itemOf id = some item → k.KeepsRetries item
  | .consume item (.retry _) _ => k.KeepsRetries item
  | .polled none _ | .rejected _ _ | .task _ _ | .consume _ _ _ => True

variable {reject : WorkItem β → Reply}

theorem queued_polled {hand items : List (WorkItem β)}
    (how : ∀ x, isOwed x k.log → k.Retrying x ∨ x ∈ hand)
    (had : ∀ x ∈ hand, isOwed x k.log → k.Admits hand items reject x) :
    (k.polled hand items reject).Queued := by
  intro x hx
  obtain ⟨accepted, hlog, hqu, his, -⟩ :=
    dispatch_log (k := { k with spawnQueue := [] }) reject (byPriority (hand ++ items))
  have hbe : isOwed x k.log := by
    have hla : isOwed x (k.log ++ accepted.map .executed) := hlog ▸ hx
    exact ((isOwed_append_executed x k.log accepted).mp hla).1
  rcases how x hbe with hre | hha
  · left
    rwa [Retrying, polled, hqu, his]
  exfalso
  have hpe : (byPriority (hand ++ items)).Perm (hand ++ items) := perm_insertionSort _ _
  obtain ⟨hadm, hal, hro, han⟩ := had x hha hbe
  have hso : { k with spawnQueue := [] }.Room (byPriority (hand ++ items)) := by
    have hco := hpe.countP_eq k.admissible
    unfold Room at ⊢
    exact hco ▸ hro
  exact not_isOwed_dispatch (k := { k with spawnQueue := [] }) reject
    (hpe.mem_iff.mpr (mem_append_left items hha)) hadm
    (fun y hy => hal y (hpe.mem_iff.mp hy)) hso
    (fun y hy => han y (hpe.mem_iff.mp hy)) hx

variable (hqueued : k.Queued)

include hqueued

theorem Queued.beginTick (hid : k.tick = none) {now : ℕ} {poll : Poll β}
    (hok : k.Careful (.tick now poll reject)) : (k.beginTick now poll reject).Queued := by
  cases poll with
  | returns =>
    refine queued_polled (fun x hx => ?_) (fun x hmem hx => ?_)
    · rcases hqueued x hx with hre | hsp
      · exact (hre.ready_or_waits now).symm.imp_right (mem_append_right k.spawnQueue)
      · exact .inr (mem_append_left _ hsp)
    · obtain ⟨hadm, hal, hro, han⟩ := hok hid x hmem hx
      exact ⟨hadm, hal, hro, han⟩
  | waits | raises =>
    intro x hx
    refine (hqueued x hx).imp_left fun hre => ?_
    exact (hre.ready_or_waits now).resolve_left fun hrd => hok hid x hrd hx

/-! ## §5 Outcomes -/

/-- Two kernels with the same queues and the same log. -/
structure SameWork (k k' : OrchestrationKernel β) : Prop where
  log : k'.log = k.log
  queue : k'.retryQueue = k.retryQueue
  items : k'.retryItems = k.retryItems
  spawned : k'.spawnQueue = k.spawnQueue

omit hqueued in
theorem SameWork.queued {k' : OrchestrationKernel β} (h : SameWork k k') (hqueued : k.Queued) :
    k'.Queued := by
  intro x hx
  rw [Retrying, h.queue, h.items, h.spawned]
  exact hqueued x (h.log ▸ hx)

variable (now : ℕ)

theorem Queued.applyOutcome {outcome : Outcome β}
    (hke : ∀ delay, outcome = .retry delay → k.KeepsRetries item) :
    (k.applyOutcome item now outcome).Queued := by
  cases outcome with
  | dispose => exact SameWork.queued ⟨rfl, rfl, rfl, rfl⟩ hqueued
  | waitExternal => exact hqueued
  | retry delay =>
    intro x hx
    rcases (isOwed_append_owed x item k.log).mp hx with hbe | rfl
    · rcases hqueued x hbe with ⟨⟨retry, hmem, hkey⟩, hget⟩ | hsp
      · left
        refine ⟨⟨retry, mem_append_left _ hmem, hkey⟩, ?_⟩
        by_cases hsa : x.dedupKey = item.dedupKey
        · -- the entry of the key is written anew, with the item that was there
          have him : x = item := hke delay rfl x (hsa ▸ hget) hbe
          subst him
          exact get_set_self _ _ _
        · exact (get_set_ne _ _ hsa).trans hget
      · exact .inr hsp
    · left
      exact ⟨⟨_, mem_append_right _ mem_cons_self, rfl⟩, get_set_self _ _ _⟩
  | spawn spawned =>
    rcases spawned with _ | spawned
    · exact hqueued
    intro x hx
    rcases (isOwed_append_owed x spawned k.log).mp hx with hbe | rfl
    · exact (hqueued x hbe).imp_right (mem_append_left [spawned])
    · exact .inr (mem_append_right _ mem_cons_self)

variable (id : TaskId)

theorem Queued.finish : (k.finish id item).Queued := SameWork.queued ⟨rfl, rfl, rfl, rfl⟩ hqueued

variable (task : Task β)

theorem Queued.leave : (k.leave id task).Queued := by
  unfold OrchestrationKernel.leave
  split
  · exact hqueued.finish id
  · exact SameWork.queued ⟨rfl, rfl, rfl, rfl⟩ hqueued

theorem Queued.cancel : (k.cancel id task).Queued := by
  unfold OrchestrationKernel.cancel
  cases task.stage with
  | running | interpreting | finishing => exact SameWork.queued ⟨rfl, rfl, rfl, rfl⟩ hqueued
  | created | acquiring | preparing | announcing | cancelling => exact hqueued.leave id task

theorem Queued.resume {id : TaskId} {task : Task β}
    (hid : k.itemOf id = some task.item) {answer : Answer β} (hok : k.Careful (.task id answer)) :
    (k.resume id task task.stage answer).Queued := by
  have hto : ∀ stage, (k.toStage id stage).Queued := fun stage =>
    SameWork.queued ⟨rfl, rfl, rfl, rfl⟩ hqueued
  have hdi : (k.applyOutcome task.item 0 .dispose).Queued := hqueued.applyOutcome 0 nofun
  have hga : (k.applyOutcome task.item 0 .waitExternal).Queued := hqueued
  unfold OrchestrationKernel.resume
  split
  · split
    · exact hto _
    · exact hdi.finish id
  case h_4 => exact hga.finish id
  case h_7 outcome now _ =>
    have hap : (k.applyOutcome task.item now outcome).Queued :=
      hqueued.applyOutcome now fun delay hre => by
        subst hre
        exact hok task.item hid
    exact SameWork.queued ⟨rfl, rfl, rfl, rfl⟩ hap
  any_goals exact hto _
  any_goals exact hqueued.finish id
  any_goals exact hqueued.leave id task
  any_goals exact hqueued.cancel id task
  all_goals exact hqueued

/-! ## §6 Runs -/

theorem Queued.step {i : Input β} (hok : k.Careful i) : (k.step i).Queued := by
  cases i with
  | tick now poll reject =>
    dsimp only [OrchestrationKernel.step]
    split
    case h_1 hil => exact hqueued.beginTick hil hok
    · exact hqueued
  | polled items reject =>
    dsimp only [OrchestrationKernel.step]
    split
    case h_1 hand items hti =>
      obtain ⟨hsp, had⟩ := hok hand hti
      exact queued_polled (fun x hx => (hqueued x hx).imp_right fun h => hsp x h hx) had
    · exact SameWork.queued ⟨rfl, rfl, rfl, rfl⟩ hqueued
    · exact hqueued
  | rejected ok reject =>
    dsimp only [OrchestrationKernel.step]
    split
    case h_1 rest _ =>
      split
      · obtain ⟨accepted, hlog, hqu, his, hsp⟩ := dispatch_log reject rest
        intro x hx
        rw [Retrying, hqu, his, hsp]
        exact hqueued x ((isOwed_append_executed x k.log accepted).mp (hlog ▸ hx)).1
      · exact SameWork.queued ⟨rfl, rfl, rfl, rfl⟩ hqueued
    · exact hqueued
  | task id answer =>
    dsimp only [OrchestrationKernel.step]
    split
    · exact hqueued
    case h_2 _ hid => exact hqueued.resume (by simp [itemOf, hid]) hok
  | consume _ _ now =>
    refine hqueued.applyOutcome now fun delay hre => ?_
    subst hre
    exact hok

omit hqueued

/-- No work is lost in a run whose ticks dispatch what they take and whose retries displace no
other item. -/
theorem noLoss_of_careful (maxConcurrentAgents : ℕ) (executable : Bool) (inputs : List (Input β))
    (hrun : Guarded step Careful (start maxConcurrentAgents executable) inputs)
    (pre : List (Input β)) (hpre : pre <+: inputs) :
    (runFrom step (start maxConcurrentAgents executable) pre).NoLoss := by
  have hin : (start maxConcurrentAgents executable : OrchestrationKernel β).Queued := nofun
  exact (hrun.throughout (fun _ _ hqueued hok => .step hqueued hok) hin hpre).noLoss

/-- A run up to the outcome. -/
def runs (outcome : Outcome β) : List (Input β) :=
  [.task id .starts, .task id .acquired, .task id (.prepared true), .task id .told, .task id .ran,
    .task id (.interpreted outcome 0)]

def polls (poll : Poll β) : Input β := .tick now poll fun _ => .done

def docs : WorkItem Unit := { dedupKey := "docs", business := () }

def urgent : WorkItem Unit := { dedupKey := "urgent", priority := 1, business := () }

/-- An item is retried and dispatched again. -/
def retried : List (Input Unit) :=
  polls 0 (.returns [docs]) :: (runs 0 (.retry 5) ++ [.task 0 .told, polls 9 (.returns [])])

theorem careful_retried : Guarded .step Careful (start 1 true) retried := by
  refine ⟨nofun, trivial, trivial, trivial, trivial, trivial,
    nofun, trivial, fun _ x hx _ => ?_, trivial⟩
  obtain rfl : x = docs := mem_singleton.mp hx
  refine ⟨by decide, fun y hy _ => mem_singleton.mp hy, ?_, fun _ _ => rfl⟩
  unfold Room
  decide

/-- Between the two ticks the item is owed, and in the retry queue. -/
theorem retried_item_present : isOwed docs (runFrom step (start 1 true) (retried.take 8)).log ∧
      (runFrom step (start 1 true) (retried.take 8)).NoLoss :=
  ⟨by decide, noLoss_of_careful 1 true retried careful_retried _ (List.take_prefix 8 retried)⟩

/-- The retry is ready in a tick in which a more urgent item takes the only slot; -/
def limitReached : List (Input Unit) :=
  polls 0 (.returns [docs]) :: (runs 0 (.retry 0) ++ [.task 0 .told, polls 1 (.returns [urgent])])

/-- in a tick before the run that asked for it has ended; -/
def stillRegistered : List (Input Unit) :=
  polls 0 (.returns [docs]) :: (runs 0 (.retry 0) ++ [polls 1 (.returns []), .task 0 .told])

/-- in a tick whose poll raises. -/
def pollRaises : List (Input Unit) :=
  polls 0 (.returns [docs]) :: (runs 0 (.retry 0) ++ [.task 0 .told, polls 1 .raises])

/-- An item is spawned while a tick waits for the poll. -/
def spawnedDuringPoll : List (Input Unit) :=
  polls 0 (.returns [docs]) :: polls 1 .waits ::
    (runs 0 (.spawn (some urgent)) ++ [.polled (some []) fun _ => .done])

theorem owed_items_lost : let after := runFrom .step (start 1 true)
    (isOwed docs (after limitReached).log ∧ ¬ (after limitReached).Present docs) ∧
    (isOwed docs (after stillRegistered).log ∧ ¬ (after stillRegistered).Present docs) ∧
    (isOwed docs (after pollRaises).log ∧ ¬ (after pollRaises).Present docs) ∧
    (isOwed urgent (after spawnedDuringPoll).log ∧ ¬ (after spawnedDuringPoll).Present urgent) := by
  decide

end OrchestrationKernel

end Orchestratord.Kernel
