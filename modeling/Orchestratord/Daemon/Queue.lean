import Orchestratord.Daemon.Orchestrator

/-! # Retries in the queue and on their way out of it

Processing the queue takes the ready items out before it awaits anything. `held` counts
the items of an issue that are out, and the lemmas below follow them. -/

namespace Orchestratord.Daemon

open Foundation

variable (i : IssueId)

/-- The number of items of the issue. -/
def waiting (items : List RetryItem) : Nat := items.countP (·.dedupKey = i)

@[simp] theorem waiting_nil : waiting i [] = 0 := rfl

@[simp] theorem waiting_cons (item : RetryItem) (items : List RetryItem) :
    waiting i (item :: items) = (if item.dedupKey = i then 1 else 0) + waiting i items := by
  unfold waiting
  rw [List.countP_cons, Nat.add_comm]
  simp

@[simp] theorem waiting_append (items more : List RetryItem) :
    waiting i (items ++ more) = waiting i items + waiting i more := by
  simp [waiting]

theorem waiting_eq_zero {i : IssueId} {items : List RetryItem} :
    waiting i items = 0 ↔ ∀ item ∈ items, item.dedupKey ≠ i := by
  simp [waiting]

variable (i : IssueId)

/-- The split loses nothing. -/
theorem waiting_splitReadyRetries (queue : List RetryItem) (now : Nat) :
    waiting i (splitReadyRetries queue now).2 + waiting i (splitReadyRetries queue now).1 =
      waiting i queue := by
  simp only [splitReadyRetries, List.partition_eq_filter_filter]
  induction queue with
  | nil => rfl
  | cons item => cases h : item.isReady now <;> simp [h] <;> omega

/-- The items of the issue that queue processing has taken out. -/
def Phase.held : Phase → Nat
  | .fetching _ item rest | .launching (.retry _ item rest) _ _ => waiting i (item :: rest)
  | _ => 0

/-- The items of the issue a launch keeps out of the queue. -/
def Source.held : Source → Nat
  | .retry _ item rest => waiting i (item :: rest)
  | _ => 0

@[simp] theorem Phase.held_launching (i id : IssueId) (source : Source) (stage : Stage) :
    (Phase.launching source id stage).held i = source.held i := by
  cases source <;> rfl

namespace Orchestrator

variable (cfg : Config) (d : Orchestrator) (now : Nat) (registry : Registry) (i : IssueId)

/-- Going through the ready items only moves them: each stays out, goes back to the queue
or, if its issue is running or completed, is dropped. -/
theorem processReady_spec (ready : List RetryItem) :
    ∃ queue phase, d.processReady cfg now ready = { d with retryQueue := queue, phase := phase } ∧
      (phase = .idle ∨ ∃ item rest, phase = .fetching now item rest) ∧
      (∀ i, waiting i d.retryQueue ≤ waiting i queue) ∧
      (∀ i, waiting i queue + phase.held i ≤ waiting i d.retryQueue + waiting i ready) ∧
      (∀ i, d.isRunning i = false → i ∉ d.completed →
        waiting i queue + phase.held i = waiting i d.retryQueue + waiting i ready) := by
  induction ready generalizing d with
  | nil =>
    exact ⟨d.retryQueue, .idle, rfl, .inl rfl, fun _ => le_rfl, fun _ => le_rfl, fun _ _ _ => rfl⟩
  | cons item rest ih =>
    unfold processReady
    split
    case isTrue hdo =>
      obtain ⟨queue, phase, heq, hph, hqu, hle, hke⟩ := ih d
      refine ⟨queue, phase, heq, hph, hqu, fun i => ?_, fun i hrun hco => ?_⟩
      · have := hle i
        rw [waiting_cons]
        omega
      · have hne : item.dedupKey ≠ i := by
          rintro rfl
          rcases hdo with h | h
          · rw [hrun] at h
            cases h
          · exact hco h
        rw [waiting_cons, if_neg hne, Nat.zero_add]
        exact hke i hrun hco
    · split
      · obtain ⟨queue, phase, heq, hph, hqu, hle, hke⟩ :=
          ih { d with retryQueue := d.retryQueue ++ [item] }
        simp only [waiting_append, waiting_cons, waiting_nil] at hqu hle hke
        refine ⟨queue, phase, heq, hph, fun i => ?_, fun i => ?_, fun i hrun hco => ?_⟩
        · have := hqu i
          omega
        · have := hle i
          rw [waiting_cons]
          omega
        · have := hke i hrun hco
          rw [waiting_cons]
          omega
      · exact ⟨d.retryQueue, .fetching now item rest, rfl, .inr ⟨item, rest, rfl⟩,
          fun _ => le_rfl, fun _ => le_rfl, fun _ _ _ => rfl⟩

theorem waiting_of_not_pending {d : Orchestrator} {i : IssueId} (h : d.retryPending i = false) :
    waiting i d.retryQueue = 0 ∧ d.registry.plan i = none := by
  unfold retryPending at h
  rw [Bool.or_eq_false_iff] at h
  refine ⟨waiting_eq_zero.mpr ?_, by simpa using h.2⟩
  intro item hmem heq
  have := List.any_eq_false.mp h.1 item hmem
  simp [heq] at this

theorem waiting_dropQueued : waiting i (d.dropQueued i).retryQueue = 0 := by
  rw [waiting_eq_zero]
  intro item hmem
  have := (List.mem_filter.mp hmem).2
  simpa using this

/-- The poll is about to learn the intent of the issue. -/
def resolving (d : Orchestrator) (i : IssueId) : Bool :=
  match d.phase with
  | .launching _ id .resolve => id = i
  | _ => false

/-! ## Startup -/

theorem get_startup (log : List Event) (i : IssueId) :
    (startup cfg now registry log).registry.get i = (registry.get i).map (recoverStale cfg now) :=
  Dict.get_mapValues _ _ i

theorem recoverStale_eq {rec : IssueRecord} (h : rec.status ≠ .running) :
    recoverStale cfg now rec = rec := by
  unfold recoverStale
  rw [if_neg h]

/-- The queue is rebuilt with one item for each record that has a plan. -/
theorem waiting_startup (log : List Event) (i : IssueId) :
    waiting i (startup cfg now registry log).retryQueue =
      ((startup cfg now registry log).registry.plan i).toList.length := by
  have hco := Dict.countP_entries (startup cfg now registry log).registry (recoverItem now)
    RetryItem.dedupKey (fun e item h => by
      unfold recoverItem at h
      cases hdue : e.2.nextRetryAt with
      | none => simp [hdue] at h
      | some =>
        rw [hdue, Option.map_some, Option.some.injEq] at h
        rw [← h]) i
  apply hco.trans
  unfold Registry.plan
  cases (startup cfg now registry log).registry.get i with
  | none => rfl
  | some rec =>
    simp only [Option.bind_some, recoverItem]
    cases rec.nextRetryAt <;> rfl

/-- A stale run is reported once. -/
theorem count_staleIds : (staleIds registry).countP (· = i) =
      if (registry.get i).any (·.status = .running) then 1 else 0 := by
  have hco := Dict.countP_entries registry
    (fun e => if e.2.status = .running then some e.1 else none) id (fun e a h => by
      split at h
      · cases h; rfl
      · cases h) i
  apply hco.trans
  cases registry.get i with
  | none => rfl
  | some rec => by_cases hrun : rec.status = .running <;> simp [hrun]

/-- A shutdown changes no more than the status of a record. -/
theorem get_release : d.release.get i = d.registry.get i ∨
      d.release.get i = (d.registry.get i).map fun rec => { rec with status := .pending } := by
  unfold release
  generalize d.sessions.filter _ = sessions
  generalize d.registry = registry
  induction sessions generalizing registry with
  | nil => exact .inl rfl
  | cons s _ ih =>
    rw [List.foldl_cons]
    have hma := Dict.get_modify registry s.issueId (fun rec => { rec with status := .pending }) i
    rcases ih (registry.mark s.issueId .pending) with h | h
    · rw [h]
      split at hma
      · exact .inr hma
      · exact .inl hma
    · refine .inr (h.trans ?_)
      unfold Registry.mark
      rw [hma]
      split
      · rw [Option.map_map]
        rfl
      · rfl

end Orchestrator

end Orchestratord.Daemon
