import Orchestratord.Kernel.Generic

/-! # Slots of the generic kernel

The running set should be the set of keys of the tasks that have not finished. Every way through
the coroutine gives the slot back, except when it is left before its try statement. -/

namespace Orchestratord.Kernel.OrchestrationKernel

open Foundation

variable {β : Type} {k k' : OrchestrationKernel β} {id : TaskId} {item : WorkItem β} {key : String}

/-! ## §1 Accounting -/

/-- The item of a task that has not finished. -/
def itemOf (k : OrchestrationKernel β) (id : TaskId) : Option (WorkItem β) :=
  (k.tasks.get id).map Task.item

def Unfinished (k : OrchestrationKernel β) (key : String) : Prop :=
  ∃ id item, k.itemOf id = some item ∧ item.dedupKey = key

structure Slots (k : OrchestrationKernel β) : Prop where
  keys : ∀ key, (k.running.get key).isSome ↔ k.Unfinished key
  unique : ∀ id id' item item', k.itemOf id = some item → k.itemOf id' = some item' →
    item.dedupKey = item'.dedupKey → id = id'
  limit : k.running.size ≤ k.maxConcurrentAgents

/-- The ids that are to come are not taken. -/
def Fresh (k : OrchestrationKernel β) : Prop := ∀ id, k.nextTask ≤ id → k.itemOf id = none

/-- Two kernels with the same tasks, up to their stages, and the same running set. -/
structure SameSlots (k k' : OrchestrationKernel β) : Prop where
  items : k'.itemOf = k.itemOf
  running : k'.running = k.running
  next : k'.nextTask = k.nextTask
  limit : k'.maxConcurrentAgents = k.maxConcurrentAgents

theorem SameSlots.unfinished (h : SameSlots k k') : k'.Unfinished key ↔ k.Unfinished key := by
  simp only [Unfinished, h.items]

theorem SameSlots.slots (h : SameSlots k k') : k'.Slots ↔ k.Slots := by
  constructor
  · rintro ⟨hke, hun, hli⟩
    refine ⟨fun key => ?_, h.items ▸ hun, h.running ▸ h.limit ▸ hli⟩
    rw [← h.running, hke key, h.unfinished]
  · rintro ⟨hke, hun, hli⟩
    refine ⟨fun key => ?_, h.items ▸ hun, h.running ▸ h.limit ▸ hli⟩
    rw [h.running, hke key, h.unfinished]

theorem SameSlots.fresh (h : SameSlots k k') : k'.Fresh ↔ k.Fresh := by
  simp only [Fresh, h.items, h.next]

/-! ## §2 What the parts of a step do -/

theorem sameSlots_toStage (stage : Stage) : SameSlots k (k.toStage id stage) := by
  refine ⟨funext fun id' => ?_, rfl, rfl, rfl⟩
  by_cases hid : id' = id
  · subst hid
    simp [itemOf, toStage, Function.comp_def]
  · simp [itemOf, toStage, hid]

theorem sameSlots_applyOutcome (now : ℕ) (outcome : Outcome β) :
    SameSlots k (k.applyOutcome item now outcome) := by
  cases outcome with
  | dispose | retry => exact ⟨rfl, rfl, rfl, rfl⟩
  | spawn spawned =>
    cases spawned with
    | none | some => exact ⟨rfl, rfl, rfl, rfl⟩
  | waitExternal => exact ⟨rfl, rfl, rfl, rfl⟩

theorem SameSlots.trans {k'' : OrchestrationKernel β} (h : SameSlots k k') (h' : SameSlots k' k'') :
    SameSlots k k'' :=
  ⟨h'.items.trans h.items, h'.running.trans h.running, h'.next.trans h.next, h'.limit.trans h.limit⟩

variable (id' : TaskId)

theorem itemOf_dropTask : (k.dropTask id).itemOf id' = if id' = id then none else k.itemOf id' := by
  by_cases hid : id' = id
  all_goals simp [itemOf, dropTask, hid]

theorem SameSlots.finish (h : SameSlots k k') :
    SameSlots (k.finish id item) (k'.finish id item) := by
  refine ⟨funext fun id' => ?_, ?_, h.next, h.limit⟩
  · show (k'.dropTask id).itemOf id' = (k.dropTask id).itemOf id'
    rw [itemOf_dropTask, itemOf_dropTask, h.items]
  · simp only [OrchestrationKernel.finish, h.running]

theorem itemOf_accept :
    (k.accept item).itemOf id' = if id' = k.nextTask then some item else k.itemOf id' := by
  by_cases hid : id' = k.nextTask
  all_goals simp [itemOf, accept, hid]

theorem rejection_eq_none : k.rejection item = none ↔
    (item.dedupKey ≠ "" ∧ k.running.get item.dedupKey = none ∧ item.dedupKey ∉ k.completed) ∧
      k.running.size < k.maxConcurrentAgents := by
  dsimp only [rejection]
  split
  case isTrue h =>
    refine iff_of_false (by simp) fun hno => ?_
    rcases h with h | h | h
    · exact absurd h hno.1.1
    · simp [hno.1.2.1] at h
    · exact absurd h hno.1.2.2
  case isFalse h =>
    simp only [not_or, Option.not_isSome_iff_eq_none] at h
    split
    case isTrue hfu => exact iff_of_false (by simp) fun hno => absurd hno.2 (not_lt.mpr hfu)
    case isFalse hfr => exact iff_of_true rfl ⟨h, not_le.mp hfr⟩

/-! ## §3 Steps that keep the accounts -/

theorem Slots.accept (hsl : k.Slots) (hfh : k.Fresh) (hok : k.rejection item = none) :
    (k.accept item).Slots := by
  obtain ⟨⟨-, hfr, -⟩, hro⟩ := rejection_eq_none.mp hok
  have hnew : ¬ k.Unfinished item.dedupKey := by
    rw [← hsl.keys, hfr]
    simp
  refine ⟨fun key => ?_, ?_, ?_⟩
  · have hget : (k.accept item).running.get key
        = if key = item.dedupKey then some item else k.running.get key := Dict.get_set _ _ _ _
    rw [hget]
    constructor
    · intro hso
      by_cases hkey : key = item.dedupKey
      · exact ⟨k.nextTask, item, by simp [itemOf_accept], hkey.symm⟩
      rw [if_neg hkey, hsl.keys] at hso
      obtain ⟨id, held, hid, hhe⟩ := hso
      have hne : id ≠ k.nextTask := fun h => by
        rw [hfh id h.ge] at hid
        cases hid
      exact ⟨id, held, by rw [itemOf_accept, if_neg hne, hid], hhe⟩
    · rintro ⟨id, held, hid, rfl⟩
      split
      · rfl
      rename_i hkey
      rw [hsl.keys]
      rw [itemOf_accept] at hid
      split at hid
      · cases hid
        exact absurd rfl hkey
      · exact ⟨id, held, hid, rfl⟩
  · intro id id' held held' hid hid' hkey
    rw [itemOf_accept] at hid hid'
    split at hid
    case isTrue hnx =>
      cases hid
      split at hid'
      case isTrue hne' => exact hnx.trans hne'.symm
      · exact absurd ⟨id', held', hid', hkey.symm⟩ hnew
    · split at hid'
      · cases hid'
        exact absurd ⟨id, held, hid, hkey⟩ hnew
      · exact hsl.unique id id' held held' hid hid' hkey
  · show (k.running.set item.dedupKey item).size ≤ k.maxConcurrentAgents
    rwa [Dict.size_set_of_none _ _ hfr]

theorem Fresh.accept (hfh : k.Fresh) : (k.accept item).Fresh := by
  intro id (hid : k.nextTask + 1 ≤ id)
  have hne : id ≠ k.nextTask := ne_of_gt hid
  rw [itemOf_accept, if_neg hne]
  exact hfh id (Nat.le_of_succ_le hid)

theorem Fresh.dropTask (hfh : k.Fresh) (id : TaskId) : (k.dropTask id).Fresh := by
  intro id' hid
  rw [itemOf_dropTask, hfh id' hid]
  split
  · rfl
  · rfl

theorem Slots.finish (hsl : k.Slots) (hid : k.itemOf id = some item) :
    (k.finish id item).Slots := by
  have his : ∀ id', (k.finish id item).itemOf id' = if id' = id then none else k.itemOf id' :=
    fun id' => itemOf_dropTask id'
  refine ⟨fun key => ?_, ?_, (Dict.size_erase_le _ _).trans hsl.limit⟩
  · show ((k.running.erase item.dedupKey).get key).isSome ↔ _
    rw [Dict.get_erase]
    constructor
    · intro hso
      split at hso
      · cases hso
      rename_i hkey
      obtain ⟨id', held, hid', rfl⟩ := (hsl.keys key).mp hso
      have hne : id' ≠ id := by
        rintro rfl
        exact hkey (by rw [Option.some.inj (hid'.symm.trans hid)])
      exact ⟨id', held, by rw [his, if_neg hne, hid'], rfl⟩
    · rintro ⟨id', held, hid', rfl⟩
      rw [his] at hid'
      split at hid'
      · cases hid'
      rename_i hne
      -- another task of the key would have the id of this one
      have hkey : held.dedupKey ≠ item.dedupKey := fun h =>
        hne (hsl.unique id' id held item hid' hid h)
      rw [if_neg hkey, hsl.keys]
      exact ⟨id', held, hid', rfl⟩
  · intro id₁ id₂ held₁ held₂ h₁ h₂ hkey
    rw [his] at h₁ h₂
    split at h₁
    · cases h₁
    · split at h₂
      · cases h₂
      · exact hsl.unique id₁ id₂ held₁ held₂ h₁ h₂ hkey

/-- A task that ends without giving its slot back. -/
theorem Slots.not_dropTask (hsl : k.Slots) (hid : k.itemOf id = some item) :
    ¬ (k.dropTask id).Slots := by
  intro hdr
  have hso : (k.running.get item.dedupKey).isSome := (hsl.keys _).mpr ⟨id, item, hid, rfl⟩
  obtain ⟨id', held, hid', hkey⟩ := (hdr.keys item.dedupKey).mp hso
  rw [itemOf_dropTask] at hid'
  split at hid'
  · cases hid'
  case isFalse hne => exact hne (hsl.unique id' id held item hid' hid hkey)

/-! ## §4 The tick -/

variable {Inv : OrchestrationKernel β → Prop}

variable (hsame : ∀ k k', SameSlots k k' → Inv k → Inv k')

include hsame

variable (haccept : ∀ k item, Inv k → k.rejection item = none → Inv (k.accept item))

include haccept

variable (reject : WorkItem β → Reply)

/-- The loop makes tasks for items that are not rejected, and changes nothing else about slots. -/
theorem dispatch_invariant (items : List (WorkItem β)) (hinv : Inv k) :
    Inv (k.dispatch reject items) := by
  induction items generalizing k with
  | nil => exact hsame k _ ⟨rfl, rfl, rfl, rfl⟩ hinv
  | cons item _ ih =>
    unfold dispatch
    split
    case h_1 hok => exact ih (haccept k item hinv hok)
    split
    · exact ih hinv
    all_goals exact hsame k _ ⟨rfl, rfl, rfl, rfl⟩ hinv

theorem polled_invariant (hand items : List (WorkItem β)) (hinv : Inv k) :
    Inv (k.polled hand items reject) :=
  dispatch_invariant hsame haccept reject _ (hsame k _ ⟨rfl, rfl, rfl, rfl⟩ hinv)

theorem beginTick_invariant (now : ℕ) (poll : Poll β) (reject : WorkItem β → Reply) (hinv : Inv k) :
    Inv (k.beginTick now poll reject) := by
  dsimp only [beginTick]
  split
  · exact polled_invariant hsame haccept reject _ _ (hsame k _ ⟨rfl, rfl, rfl, rfl⟩ hinv)
  all_goals exact hsame k _ ⟨rfl, rfl, rfl, rfl⟩ hinv

omit haccept

omit hsame

/-! ## §5 Tasks -/

/-- The input ends a task by an exception or a cancellation before its try statement. -/
def abandons (k : OrchestrationKernel β) : Input β → Bool
  | .task id answer =>
    match k.tasks.get id with
    | none => false
    | some task =>
      match answer with
      | .raises => task.stage = .preparing ∨ task.stage = .announcing
      | .cancelled => ! task.stage.guarded
      | _ => false
  | _ => false

/-- A task goes on, gives its slot back as it ends, or is abandoned. -/
theorem resume_cases (k : OrchestrationKernel β) (task : Task β) (hid : k.tasks.get id = some task)
    (answer : Answer β) :
    if k.abandons (.task id answer) then k.resume id task task.stage answer = k.dropTask id
    else SameSlots k (k.resume id task task.stage answer) ∨
      SameSlots (k.finish id task.item) (k.resume id task task.stage answer) := by
  have hre : SameSlots k k := ⟨rfl, rfl, rfl, rfl⟩
  have hfi : SameSlots (k.finish id task.item) (k.finish id task.item) := ⟨rfl, rfl, rfl, rfl⟩
  simp only [abandons, hid]
  cases answer with
  | starts =>
    simp only [Bool.false_eq_true, if_false]
    cases task.stage with
    | created =>
      simp only [resume]
      split
      · exact .inl (sameSlots_toStage _)
      · exact .inr (sameSlots_applyOutcome _ _).finish
    | _ => exact .inl hre
  | acquired =>
    cases task.stage with
    | acquiring => exact .inl (sameSlots_toStage _)
    | _ => exact .inl hre
  | prepared run =>
    cases task.stage with
    | preparing =>
      cases run with
      | true => exact .inl (sameSlots_toStage _)
      | false => exact .inr (sameSlots_applyOutcome _ _).finish
    | _ => exact .inl hre
  | told =>
    cases task.stage with
    | announcing => exact .inl (sameSlots_toStage _)
    | finishing | cancelling => exact .inr hfi
    | _ => exact .inl hre
  | ran =>
    cases task.stage with
    | running => exact .inl (sameSlots_toStage _)
    | _ => exact .inl hre
  | interpreted =>
    cases task.stage with
    | interpreting => exact .inl ((sameSlots_applyOutcome _ _).trans (sameSlots_toStage _))
    | _ => exact .inl hre
  | raises =>
    cases hst : task.stage with
    | created | acquiring => exact .inl hre
    | preparing | announcing => simp [resume, leave, hst, Stage.guarded]
    | running | interpreting | finishing | cancelling =>
      exact .inr (by simpa [resume, leave, hst, Stage.guarded] using hfi)
  | cancelled =>
    cases hst : task.stage with
    | created | acquiring | preparing | announcing =>
      simp [resume, cancel, leave, hst, Stage.guarded]
    | running | interpreting | finishing =>
      exact .inl (by simpa [resume, cancel, hst] using sameSlots_toStage _)
    | cancelling => exact .inr (by simpa [resume, cancel, leave, hst, Stage.guarded] using hfi)

/-! ## §6 Runs -/

/-- What a change of stages keeps, a new task keeps and the end of a task keeps, a step that
abandons no task keeps. -/
theorem step_invariant (Inv : OrchestrationKernel β → Prop)
    (hsame : ∀ k k', SameSlots k k' → Inv k → Inv k')
    (haccept : ∀ k item, Inv k → k.rejection item = none → Inv (k.accept item))
    (hfi : ∀ k id item, k.itemOf id = some item → Inv k → Inv (k.finish id item))
    (i : Input β) (hok : k.abandons i = false) (hinv : Inv k) : Inv (k.step i) := by
  cases i with
  | tick now poll reject =>
    dsimp only [step]
    split
    · exact beginTick_invariant hsame haccept now poll reject hinv
    · exact hinv
  | polled items reject =>
    dsimp only [step]
    split
    · exact polled_invariant hsame haccept reject _ _ hinv
    · exact hsame k _ ⟨rfl, rfl, rfl, rfl⟩ hinv
    · exact hinv
  | rejected ok reject =>
    dsimp only [step]
    split
    case h_1 rest _ =>
      split
      · exact dispatch_invariant hsame haccept reject rest hinv
      · exact hsame k _ ⟨rfl, rfl, rfl, rfl⟩ hinv
    · exact hinv
  | task id answer =>
    dsimp only [step]
    split
    · exact hinv
    rename_i task hid
    have hca := resume_cases k task hid answer
    rw [hok] at hca
    rcases hca with hst | hen
    · exact hsame k _ hst hinv
    · exact hsame _ _ hen (hfi k id task.item (by simp [itemOf, hid]) hinv)
  | consume _ outcome now => exact hsame k _ (sameSlots_applyOutcome now outcome) hinv

/-- An abandoned task is the only thing that goes. -/
theorem step_of_abandons {i : Input β} (h : k.abandons i = true) :
    ∃ id item, k.itemOf id = some item ∧ k.step i = k.dropTask id := by
  cases i with
  | task id answer =>
    cases hid : k.tasks.get id with
    | none => simp [abandons, hid] at h
    | some task =>
      have hca := resume_cases k task hid answer
      rw [h] at hca
      exact ⟨id, task.item, by simp [itemOf, hid], by simpa [step, hid] using hca⟩
  | tick | polled | rejected | consume => cases h

theorem Fresh.step (hfh : k.Fresh) (i : Input β) : (k.step i).Fresh := by
  cases hab : k.abandons i with
  | true =>
    obtain ⟨id, _, -, hst⟩ := step_of_abandons hab
    rw [hst]
    exact hfh.dropTask id
  | false =>
    apply step_invariant Fresh (fun _ _ hsame => hsame.fresh.mpr) (fun _ _ h _ => h.accept) ?_ i
      hab hfh
    intro k id _ _ hfh
    exact hfh.dropTask id

theorem Slots.step_iff (hfh : k.Fresh) (hsl : k.Slots) (i : Input β) :
    (k.step i).Slots ↔ k.abandons i = false := by
  constructor
  · intro hne
    by_contra hab
    obtain ⟨_, _, hid, hst⟩ := step_of_abandons (Bool.eq_true_of_not_eq_false hab)
    exact hsl.not_dropTask hid (hst ▸ hne)
  · intro hok
    have hke : (k.step i).Fresh ∧ (k.step i).Slots := by
      apply step_invariant (fun k => k.Fresh ∧ k.Slots)
        (fun _ _ hsame h => ⟨hsame.fresh.mpr h.1, hsame.slots.mpr h.2⟩)
        (fun _ _ h hok => ⟨h.1.accept, h.2.accept h.1 hok⟩) ?_ i hok ⟨hfh, hsl⟩
      intro k id item hid ⟨hfh, hsl⟩
      exact ⟨hfh.dropTask id, hsl.finish hid⟩
    exact hke.2

variable (maxConcurrentAgents : ℕ) (executable : Bool)

/-- A kernel that has done nothing. -/
def start : OrchestrationKernel β :=
  { maxConcurrentAgents, executable }

/-- The running set is the set of keys of unfinished tasks in every state of a run, one task for
a key and no more than the limit, exactly if no task of the run raises or is cancelled before its
try statement. -/
theorem slots_iff_none_abandoned (inputs : List (Input β)) :
    (∀ pre, pre <+: inputs → (runFrom step (start maxConcurrentAgents executable) pre).Slots) ↔
      Guarded step (fun k i => k.abandons i = false) (start maxConcurrentAgents executable)
        inputs := by
  have hfh : (start maxConcurrentAgents executable : OrchestrationKernel β).Fresh := fun _ _ => rfl
  have hsl : (start maxConcurrentAgents executable : OrchestrationKernel β).Slots := by
    refine ⟨fun key => ?_, nofun, Nat.zero_le _⟩
    exact ⟨nofun, fun ⟨_, _, h, _⟩ => (nomatch h)⟩
  exact (Guarded.iff_throughout (fun _ i h => h.step i) (fun _ i hf hs => hs.step_iff hf i) hfh
    hsl).symm

/-- An unfinished task has its key in the running set and no other task beside it. -/
def Held (limit : ℕ) (k : OrchestrationKernel β) : Prop :=
  k.maxConcurrentAgents = limit ∧ k.running.size ≤ limit ∧ ∀ id item, k.itemOf id = some item →
    (k.running.get item.dedupKey).isSome ∧
      ∀ id' item', k.itemOf id' = some item' → item'.dedupKey = item.dedupKey → id' = id

theorem Held.step {limit : ℕ} (h : k.Held limit) (i : Input β) : (k.step i).Held limit := by
  cases hab : k.abandons i with
  | true =>
    obtain ⟨id, _, -, hst⟩ := step_of_abandons hab
    rw [hst]
    refine ⟨h.1, h.2.1, ?_⟩
    grind [itemOf_dropTask, Held, dropTask]
  | false =>
    apply step_invariant (Held limit) ?_ ?_ ?_ i hab h
    · rintro k k' hsame ⟨hli, hsi, hta⟩
      exact ⟨hsame.limit.trans hli, hsame.running ▸ hsi, hsame.items ▸ hsame.running ▸ hta⟩
    · rintro k item ⟨hli, hsi, hta⟩ hok
      obtain ⟨⟨-, hfr, -⟩, hro⟩ := rejection_eq_none.mp hok
      refine ⟨hli, (Dict.size_set_of_none _ _ hfr).trans_le (hli ▸ hro), ?_⟩
      grind [itemOf_accept, accept, Dict.get_set]
    · rintro k id item hid ⟨hli, hsi, hta⟩
      have hit (id' : TaskId) : (k.finish id item).itemOf id' = _ := itemOf_dropTask id'
      refine ⟨hli, (Dict.size_erase_le _ _).trans hsi, ?_⟩
      grind [finish, Dict.get_erase]

/-- However the tasks end, and in whatever order: a key has one unfinished task at most, it is in
the running set, and the running set stays within the limit. -/
theorem held_throughout (inputs : List (Input β)) :
    (runFrom step (start maxConcurrentAgents executable) inputs).Held maxConcurrentAgents :=
  Guarded.always (fun _ i h => h.step i) ⟨rfl, Nat.zero_le _, nofun⟩ inputs

/-- A key in the running set without a task. -/
def Orphaned (k : OrchestrationKernel β) (key : String) : Prop :=
  (k.running.get key).isSome ∧ ¬ k.Unfinished key

/-- Nothing takes such a key out of the running set again. -/
theorem Orphaned.step (h : k.Orphaned key) (i : Input β) : (k.step i).Orphaned key := by
  cases hab : k.abandons i with
  | true =>
    obtain ⟨_, _, -, hst⟩ := step_of_abandons hab
    rw [hst]
    refine ⟨h.1, mt ?_ h.2⟩
    rintro ⟨id', held, hid', hkey⟩
    rw [itemOf_dropTask] at hid'
    split at hid'
    · cases hid'
    · exact ⟨id', held, hid', hkey⟩
  | false =>
    apply step_invariant (Orphaned · key) ?_ ?_ ?_ i hab h
    · rintro k k' hsame ⟨hru, hno⟩
      exact ⟨hsame.running ▸ hru, fun hso => hno (hsame.unfinished.mp hso)⟩
    · rintro k item ⟨hru, hno⟩ hok
      have hkey : key ≠ item.dedupKey := by
        rintro rfl
        rw [(rejection_eq_none.mp hok).1.2.1] at hru
        cases hru
      refine ⟨by simpa [accept, hkey] using hru, ?_⟩
      rintro ⟨id', held, hid', heq⟩
      rw [itemOf_accept] at hid'
      split at hid'
      · cases hid'
        exact hkey heq.symm
      · exact hno ⟨id', held, hid', heq⟩
    · rintro k id item hid ⟨hru, hno⟩
      have hkey : key ≠ item.dedupKey := fun heq => hno ⟨id, item, hid, heq.symm⟩
      refine ⟨by simpa [finish, hkey] using hru, ?_⟩
      rintro ⟨id', held, hid', heq⟩
      change (k.dropTask id).itemOf id' = some held at hid'
      rw [itemOf_dropTask] at hid'
      split at hid'
      · cases hid'
      · exact hno ⟨id', held, hid', heq⟩

theorem Orphaned.run (h : k.Orphaned key) (inputs : List (Input β)) :
    (runFrom .step k inputs).Orphaned key := by
  induction inputs generalizing k with
  | nil => exact h
  | cons i _ ih => exact ih (h.step i)

/-- An item is dispatched, and the application raises as it prepares the run. -/
def raisingPrepare : List (Input Unit) :=
  [.tick 0 (.returns [{ dedupKey := "a", business := () }]) fun _ => .done,
    .task 0 .starts, .task 0 .acquired, .task 0 .raises]

/-- The slot stays taken without a task, whatever happens after. -/
theorem raising_prepare_keeps_slot : ¬ (runFrom step (start 1 true) raisingPrepare).Slots ∧
      ∀ later, ((runFrom step (start 1 true) (raisingPrepare ++ later)).running.get "a").isSome ∧
        ¬ (runFrom step (start 1 true) (raisingPrepare ++ later)).Unfinished "a" := by
  have hor : (runFrom step (start 1 true) raisingPrepare).Orphaned "a" := by
    refine ⟨rfl, fun ⟨id, item, hid, _⟩ => ?_⟩
    cases hid
  refine ⟨fun hsl => hor.2 ((hsl.keys "a").mp hor.1), fun later => ?_⟩
  have hla := Orphaned.run hor later
  rwa [runFrom, runFrom] at hla

end Orchestratord.Kernel.OrchestrationKernel
