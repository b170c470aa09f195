import Orchestratord.Workflow.Bounds
import Orchestratord.Workflow.Resume
import Orchestratord.Workflow.Success

/-!
# Executing a stage again

Rollbacks and decisions make the loop execute stages again, while the state
keeps what earlier executions left: the list of completed stages, the results
and the error of the run. This file compares what is kept with what the latest
executions came to.

A rollback's update goes by the numbers of the stages and not by their
dependencies (§1). A failed execution does not replace the result of an earlier
one, so a stage can start on a dependency that failed last (§2, §3). And the
error of a rollback is never taken back, so that a run that recovers is still
reported as failed (§4).
-/

namespace Orchestratord.Workflow

open Foundation Event Engine List Option WorkflowState

variable {σ : Type}

/-! ## §1 What a rollback invalidates -/

theorem foldl_erase_cons {a : Int} {l removed : List Int} (h : a ∉ removed) :
    removed.foldl List.erase (a :: l) = a :: removed.foldl List.erase l := by
  induction removed generalizing l with
  | nil => rfl
  | cons _ _ ih =>
    rw [List.mem_cons, not_or] at h
    obtain ⟨hb, hre⟩ := h
    rw [List.foldl_cons, List.erase_cons_tail (by simpa using hb), ih hre, List.foldl_cons]

theorem foldl_erase_filter (p : Int → Bool) (l : List Int) :
    (l.filter p).foldl List.erase l = l.filter (fun i => ! p i) := by
  induction l with
  | nil => rfl
  | cons a _ ih =>
    by_cases ha : p a
    · rw [List.filter_cons_of_pos ha, List.foldl_cons, List.erase_cons_head, ih,
        List.filter_cons_of_neg (by simp [ha])]
    · rw [List.filter_cons_of_neg ha,
        foldl_erase_cons (fun hmem => ha (List.mem_filter.mp hmem).2), ih,
        List.filter_cons_of_pos (by simpa using ha)]

theorem foldl_update_none {α : Type} (removed : List Int) (f : Int → Option α) (i : Int) :
    removed.foldl (fun m sid => Function.update m sid none) f i =
      if i ∈ removed then none else f i := by
  induction removed generalizing f with
  | nil => simp
  | cons a removed ih =>
    rw [foldl_cons, ih]
    by_cases hi : i ∈ removed
    · simp [hi]
    · by_cases ha : i = a
      · simp [ha]
      · simp [ha]

variable {S : Setup σ} {dag : List Int} {idx : Nat} {s : WorkflowState} {e : Engine σ}
  {stage : StageNode} {r : StageResult} {d failed i target : Int} {chunk : List Event}

/-- The completed stages numbered up to the target stay. -/
theorem mem_updateStateOnRollback : i ∈ (updateStateOnRollback s target failed).completedStages ↔
      i ∈ s.completedStages ∧ i ≤ target := by
  have hfi : (updateStateOnRollback s target failed).completedStages =
      s.completedStages.filter (fun sid => ! decide (target < sid)) :=
    foldl_erase_filter (fun sid => decide (target < sid)) s.completedStages
  rw [hfi]
  simp

theorem updateStateOnRollback_result : (updateStateOnRollback s target failed).stageResults i =
      if i ∈ s.completedStages ∧ target < i then none else s.stageResults i := by
  have hre := foldl_update_none
    (s.completedStages.filter (fun sid => decide (target < sid))) s.stageResults i
  simp only [mem_filter, decide_eq_true_eq] at hre
  exact hre

/-- What a rollback to `target` is to do: the target and what depends on it,
through others or at once, count as completed no longer; the rest keeps its
completion and its result. -/
structure InvalidatesDownstream (w : WorkflowSchema) (target : Int) (s s' : WorkflowState) :
    Prop where
  exactly : ∀ i ∈ s.completedStages, i ∉ s'.completedStages ↔
    i = target ∨ Relation.TransGen (Depends w.dependsOn) i target
  kept : ∀ i ∈ s'.completedStages, i ∈ s.completedStages ∧ s'.stageResults i = s.stageResults i

/-- **What a rollback invalidates.** The update is right exactly when the target
was not completed itself and, of the completed stages, those that depend on it
are the ones with larger numbers. -/
theorem updateStateOnRollback_iff (w : WorkflowSchema) (s : WorkflowState) (target failed : Int) :
    InvalidatesDownstream w target s (updateStateOnRollback s target failed) ↔
      target ∉ s.completedStages ∧ ∀ i ∈ s.completedStages,
        (target < i ↔ Relation.TransGen (Depends w.dependsOn) i target) := by
  have hgo : ∀ i ∈ s.completedStages,
      i ∉ (updateStateOnRollback s target failed).completedStages ↔ target < i := by
    intro i hi
    rw [mem_updateStateOnRollback, not_and, not_le]
    exact ⟨fun h => h hi, fun h _ => h⟩
  constructor
  · intro h
    have hop : target ∉ s.completedStages := by
      intro hmem
      exact lt_irrefl target ((hgo target hmem).mp ((h.exactly target hmem).mpr (.inl rfl)))
    refine ⟨hop, fun i hi => ?_⟩
    rw [← hgo i hi, h.exactly i hi, or_iff_right]
    rintro rfl
    exact hop hi
  · rintro ⟨hop, hids⟩
    constructor
    · intro i hi
      rw [hgo i hi, hids i hi, or_iff_right]
      rintro rfl
      exact hop hi
    · intro i hi
      obtain ⟨hmem, hle⟩ := mem_updateStateOnRollback.mp hi
      refine ⟨hmem, ?_⟩
      rw [updateStateOnRollback_result, if_neg (fun h => absurd h.2 (not_lt.mpr hle))]

/-- The build is numbered below the plan it depends on, and the documentation,
which depends on nothing, above it; a rejected review goes back to the plan. -/
def parallelDocs : WorkflowSchema where
  name := "parallel docs"
  stages := [
    { id := 5, name := "Plan", kind := .agent },
    { id := 2, name := "Build", kind := .agent, dependsOn := [5] },
    { id := 6, name := "Docs", kind := .agent },
    { id := 7, name := "Review", kind := .gate, dependsOn := [2], gateRollbackTo := some 5 }]
  distinct := by decide

def parallelDocsSetup : Setup Unit where
  workflow := parallelDocs
  config := { enableSnapshots := true }
  stageRunner := some {
    run := fun _ _ env => (.returned { success := true }, env)
    runAction := fun _ _ env => (.returned { success := true }, env)
    runGate := fun _ _ env => (.returned { approved := false }, env)
    runDecision := fun _ _ env => (.returned {}, env) }
  validateAll := fun _ env => ([], env)
  restoreSnapshot := fun _ env => (true, env)

/-- In the state the review starts in, going back to the plan keeps the plan and
the build as completed and throws the documentation away. -/
theorem parallelDocs_invalidated : ∃ m e,
    loopPasses parallelDocsSetup [5, 6, 2, 7] 3 0 none (prepareRun parallelDocsSetup
      [5, 6, 2, 7] none (fresh parallelDocsSetup none ())) = some (3, m, e) ∧
    e.state.completedStages = [5, 6, 2] ∧
    (updateStateOnRollback e.state 5 7).completedStages = [5, 2] ∧
    ¬ InvalidatesDownstream parallelDocs 5 e.state (updateStateOnRollback e.state 5 7) := by
  have hre : (loopPasses parallelDocsSetup [5, 6, 2, 7] 3 0 none (prepareRun
      parallelDocsSetup [5, 6, 2, 7] none (.fresh parallelDocsSetup none ()))).map
        (fun out => (out.1, out.2.2.state.completedStages,
          (updateStateOnRollback out.2.2.state 5 7).completedStages)) =
      some (3, [5, 6, 2], [5, 2]) := by
    decide +kernel
  obtain ⟨⟨_, m, e⟩, hpa, hout⟩ := map_eq_some_iff.mp hre
  simp only [Prod.mk.injEq] at hout
  obtain ⟨rfl, hdo, hle⟩ := hout
  refine ⟨m, e, hpa, hdo, hle, fun h => ?_⟩
  have hde : Relation.TransGen (Depends parallelDocs.dependsOn) 2 5 :=
    .single (by decide : 5 ∈ parallelDocs.dependsOn 2)
  exact (h.exactly 2 (by rw [hdo]; decide)).mpr (.inr hde) (by rw [hle]; decide)

/-! ## §2 How the latest execution of a stage ended -/

inductive Ending where
  | running | passed | rejected | failed
deriving DecidableEq, Repr

/-- What an event says about the latest execution of stage `i`. A rejected gate
is booked like any other stage; it stays rejected. -/
def Event.ending (i : Int) (last : Option Ending) : Event → Option Ending
  | .stageStart j _ _ => if j = i then some .running else last
  | .gateRejected j _ _ => if j = i then some .rejected else last
  | .stageFailed j _ _ => if j = i then some .failed else last
  | .stageComplete j _ _ => if j = i ∧ last ≠ some .rejected then some .passed else last
  | _ => last

/-- How the latest execution of stage `i` ended; `none` if there was none. -/
def lastEnding (i : Int) (log : List Event) : Option Ending := log.foldl (ending i) none

/-- The stages an event is about for `lastEnding`. -/
def Event.about : Event → Option Int
  | .stageStart j _ _ | .gateRejected j _ _ | .stageFailed j _ _ | .stageComplete j _ _ => some j
  | _ => none

variable {last : Option Ending} {a : Event}

theorem ending_of_not_about (h : a.about ≠ some i) : a.ending i last = last := by
  cases a <;> simp only [about, ne_eq, some.injEq] at h <;> simp [ending, h]

theorem foldl_ending_of_not_about (h : ∀ a ∈ chunk, a.about ≠ some i) :
    chunk.foldl (ending i) last = last := by
  induction chunk generalizing last with
  | nil => rfl
  | cons a _ ih =>
    rw [foldl_cons, ending_of_not_about (h a mem_cons_self)]
    exact ih (fun b hb => h b (mem_cons_of_mem _ hb))

theorem lastEnding_append_of_not_about {log : List Event} (h : ∀ a ∈ chunk, a.about ≠ some i) :
    lastEnding i (log ++ chunk) = lastEnding i log := by
  rw [lastEnding, foldl_append, foldl_ending_of_not_about h, lastEnding]

variable {out : Except EngineError StageResult}

theorem StageEvents.about {inner : List Event} (h : StageEvents stage out inner) (ha : a ∈ inner) :
    a.about = none ∨ a.about = some stage.id := by
  rcases h.mem ha with ⟨text, rfl⟩ | rfl | rfl | ⟨reason, rfl⟩ | ⟨outcome, next, rfl⟩
  · exact .inl rfl
  · exact .inl rfl
  · exact .inl rfl
  · exact .inr rfl
  · exact .inl rfl

variable {e' : Engine σ}

/-- A stage that is booked has passed, or was rejected. -/
theorem Started.lastEnding_complete (h : Started S dag idx e stage (.ok r, e')) :
    lastEnding stage.id (completeStage S stage r e').eventLog =
      some (if r.status = .gateRejected then .rejected else .passed) := by
  obtain ⟨_, hlog, hev⟩ := h.run.log
  rw [completeStage_eventLog, hlog, lastEnding, foldl_append, foldl_append]
  simp only [ending, foldl_cons, foldl_nil]
  cases hev with
  | worked _ _ _ hst =>
    rw [foldl_ending_of_not_about (by simp [about])]
    simp [hst]
  | approved _ _ hst => simp [ending, hst]
  | rejected _ _ _ hst | decided _ _ _ hst => simp [ending, hst]

/-- The events of a stage and its settlement say nothing about other stages. -/
theorem Started.lastEnding_other (h : Started S dag idx e stage (out, e')) (hd : d ≠ stage.id)
    (hch : ∀ a ∈ chunk, a.about = none ∨ a.about = some stage.id) :
    lastEnding d (e'.eventLog ++ chunk) = lastEnding d e.eventLog := by
  obtain ⟨_, hlog, hev⟩ := h.run.log
  have hnot : ∀ a : Event, a.about = none ∨ a.about = some stage.id → a.about ≠ some d := by
    rintro a (ha | ha) hc
    · rw [ha] at hc
      cases hc
    · rw [ha] at hc
      exact hd (some.inj hc).symm
  rw [hlog, append_assoc]
  apply lastEnding_append_of_not_about
  intro a ha
  rcases mem_cons.mp ha with rfl | ha
  · exact hnot _ (.inr rfl)
  · rcases mem_append.mp ha with ha | ha
    · exact hnot a (hev.about ha)
    · exact hnot a (hch a ha)

/-! ## §3 Starts on fresh dependencies -/

variable (w : WorkflowSchema)

/-- The latest execution passed, or was a rejection that `on_error = skip` accepts. -/
def Fresh (log : List Event) (d : Int) : Prop :=
  lastEnding d log = some .passed ∨ lastEnding d log = some .rejected ∧
      ∃ g, w.getStage d = some g ∧ g.kind = .gate ∧ g.onError = .skip

variable (s₀ : WorkflowState) (log : List Event)

/-- Fresh, or not executed in this run and taken over from its first state. -/
def Current (d : Int) : Prop :=
  Fresh w log d ∨ lastEnding d log = none ∧ dependencySatisfied s₀ d = true

/-- Whenever the log has a stage start, its dependencies were current. -/
def FreshStarts : Prop :=
  ∀ k i name phase, log[k]? = some (.stageStart i name phase) →
    ∀ d ∈ w.dependsOn i, Current w s₀ (log.take k) d

/-- What the state counts as satisfied is current. -/
def UpToDate (e : Engine σ) : Prop :=
  ∀ d, dependencySatisfied e.state d = true → Current w s₀ e.eventLog d

/-- The rollback after the failure takes back what the stage had left. -/
def Clears (S : Setup σ) (stage : StageNode) (e : Engine σ) : Prop :=
  S.config.enableSnapshots = true ∧ ∃ target rest, stage.dependsOn = target :: rest ∧
    target < stage.id ∧ (S.restoreSnapshot target e.env).1 = true

/-- When the stage at `idx` fails or times out, and the run goes on, the state
does not count it as satisfied any more. -/
def SettlesFresh (S : Setup σ) (dagOrder : List Int) (idx : Nat) (e : Engine σ) : Prop :=
  ∀ stage err e', Started S dagOrder idx e stage (.error err, e') → err.ofStage = true →
    stage.onError ≠ .fail → dependencySatisfied e.state stage.id = true →
      (∃ text, err = .stageFailure text) ∧ stage.onError = .rollback ∧ Clears S stage e'

theorem dependencySatisfied_rollback
    (h : dependencySatisfied (updateStateOnRollback s target failed) d = true) :
    dependencySatisfied s d = true ∧ d ≤ target := by
  have hmem : d ∈ (updateStateOnRollback s target failed).completedStages := by
    rw [dependencySatisfied, Bool.and_eq_true] at h
    exact of_decide_eq_true h.1
  obtain ⟨hold, hle⟩ := mem_updateStateOnRollback.mp hmem
  refine ⟨?_, hle⟩
  rw [← h]
  symm
  apply dependencySatisfied_congr
  · exact ⟨fun _ => hold, fun _ => hmem⟩
  · rw [updateStateOnRollback_result, if_neg (fun hc => absurd hc.2 (not_lt.mpr hle))]

theorem dependencySatisfied_of_failStage {text : String} (h : dependencySatisfied (failStage stage text e).state d = true) :
    dependencySatisfied e.state d = true := by
  by_cases hd : d = stage.id
  · simp only [failStage, markStageFailed] at h
    split at h
    · exact h
    · simp [dependencySatisfied, getStageResult, hd] at h
  · rwa [dependencySatisfied_failStage hd] at h

theorem dependencySatisfied_acceptRejection (hd : d ≠ stage.id) :
    dependencySatisfied (acceptRejection stage r e).state d = dependencySatisfied e.state d :=
  dependencySatisfied_congr .rfl (Function.update_of_ne hd _ _)

theorem dependencySatisfied_of_rollbackToStage
    (h : dependencySatisfied (rollbackToStage S dag stage e).2.state d = true) :
    dependencySatisfied e.state d = true := by
  rcases (rollbackToStage_spec S dag stage e).2.2.2 with hst | ⟨target, rest, -, hst⟩
  · rwa [hst] at h
  · rw [hst] at h
    exact (dependencySatisfied_rollback h).1

theorem dependencySatisfied_of_handleGateRejection
    (h : dependencySatisfied (handleGateRejection S dag stage r e).2.state d = true) :
    dependencySatisfied e.state d = true := by
  rcases (handleGateRejection_spec S dag stage r e).2.2.2 with
    ⟨hco, hre⟩ | ⟨target, hco, hre⟩
  · rwa [dependencySatisfied_congr (s := e.state) (by rw [hco]) (by rw [hre])] at h
  · rw [dependencySatisfied_congr (s := updateStateOnRollback e.state target stage.id)
      (by rw [hco]) (by rw [hre])] at h
    exact (dependencySatisfied_rollback h).1

/-- A rollback that clears the stage leaves it unsatisfied. -/
theorem Clears.not_satisfied (h : Clears S stage e) (dag : List Int) :
    dependencySatisfied (rollbackToStage S dag stage e).2.state stage.id = false := by
  obtain ⟨hsn, target, _, hde, hle, hre⟩ := h
  have hst : (rollbackToStage S dag stage e).2.state =
      updateStateOnRollback e.state target stage.id := by
    simp only [rollbackToStage, hsn, hde, hre, Bool.not_true, Bool.false_eq_true, if_false]
    split <;> rfl
  rw [hst, Bool.eq_false_iff]
  intro hsat
  exact absurd (dependencySatisfied_rollback hsat).2 (not_le.mpr hle)

theorem Started.satisfied_iff {out : StageOutcome σ} (h : Started S dag idx e stage out)
    (d : Int) : dependencySatisfied out.2.state d = dependencySatisfied e.state d := by
  rw [h.run.state]
  rfl

variable {m m' : Option String} {idx' : Nat}

section

variable {s₀ : WorkflowState}

/-- A pass at one stage: the others' endings stay, and none of them becomes satisfied. -/
theorem UpToDate.of_started {e₁ : Engine σ} {tail : List Event}
    (h : UpToDate S.workflow s₀ e) (hst : Started S dag idx e stage (out, e₁))
    (hlog : e'.eventLog = e₁.eventLog ++ tail)
    (hta : ∀ a ∈ tail, a.about = none ∨ a.about = some stage.id)
    (hot : ∀ d, d ≠ stage.id → dependencySatisfied e'.state d = true →
      dependencySatisfied e₁.state d = true)
    (hse : dependencySatisfied e'.state stage.id = true → Fresh S.workflow e'.eventLog stage.id) :
    UpToDate S.workflow s₀ e' := by
  intro d hd
  by_cases hi : d = stage.id
  · subst hi
    exact .inl (hse hd)
  · have hcu := h d ((hst.satisfied_iff d).symm.trans (hot d hi hd))
    rwa [Current, Fresh, ← hst.lastEnding_other hi hta, ← hlog] at hcu

theorem Pass.upToDate (h : Pass S dag idx m e (.next idx' m' e')) (hup : UpToDate S.workflow s₀ e)
    (hfr : SettlesFresh S dag idx e) : UpToDate S.workflow s₀ e' := by
  cases h with
  | absent => exact hup
  | skipped stage env =>
    intro d hd
    have hen : lastEnding d (skipStage stage { e with env := env }).eventLog =
        lastEnding d e.eventLog := lastEnding_append_of_not_about (by simp [about])
    rw [Current, Fresh, hen]
    exact hup d hd
  | completed stage r _ h hok =>
    have hst : r.status ≠ .gateRejected := by
      by_cases hga : stage.kind = .gate
      · exact fun hrej => hok ⟨hga, hrej⟩
      · simp [(h.run.result r rfl).other hga]
    refine hup.of_started h (completeStage_eventLog ..) (by simp [about]) (fun d hd => ?_)
      (fun _ => .inl ?_)
    · rw [dependencySatisfied_completeStage, if_neg hd]
      exact id
    · rw [h.lastEnding_complete, if_neg hst]
  | accepted stage r e₁ h hac =>
    refine hup.of_started h (completeStage_eventLog S stage r e₁) (by simp [about])
      (fun d hd => ?_) (fun _ => .inr ⟨?_, stage, h.found, hac.1, hac.2.2.1⟩)
    · rw [dependencySatisfied_acceptRejection hd, dependencySatisfied_completeStage, if_neg hd]
      exact id
    · show lastEnding stage.id (completeStage S stage r e₁).eventLog = _
      rw [h.lastEnding_complete, if_pos hac.2.1]
  | turnedBack stage r e₁ h hba =>
    obtain ⟨⟨_, hlog⟩, -⟩ := handleGateRejection_spec S dag stage r (completeStage S stage r e₁)
    rw [completeStage_eventLog, append_assoc] at hlog
    refine hup.of_started h hlog (by simp [about]) (fun d hd hsat => ?_) (fun hsat => ?_)
    · have hsat' := dependencySatisfied_of_handleGateRejection hsat
      rwa [dependencySatisfied_completeStage, if_neg hd] at hsat'
    · have hsat' := dependencySatisfied_of_handleGateRejection hsat
      rw [dependencySatisfied_completeStage, if_pos rfl, hba.2.1] at hsat'
      cases hsat'
  | passedOver stage err e₁ h herr hfa hsy =>
    refine hup.of_started h rfl (by simp [about])
      (fun d _ => dependencySatisfied_of_failStage) (fun hsat => ?_)
    have hsat' := dependencySatisfied_of_failStage hsat
    rw [h.satisfied_iff] at hsat'
    obtain ⟨⟨text, hte⟩, hro, -⟩ := hfr stage err e₁ h herr hfa hsat'
    exact absurd hro (hsy text hte)
  | rolledBack stage text e₁ h hba =>
    refine hup.of_started h (rollbackToStage_spec S dag stage (failStage stage text e₁)).1
      (by simp [about]) (fun d _ hsat => ?_) (fun hsat => ?_)
    · exact dependencySatisfied_of_failStage (dependencySatisfied_of_rollbackToStage hsat)
    have hsat' := dependencySatisfied_of_failStage (dependencySatisfied_of_rollbackToStage hsat)
    rw [h.satisfied_iff] at hsat'
    obtain ⟨-, -, hcl⟩ := hfr stage _ e₁ h rfl (by simp [hba]) hsat'
    have hgo := Clears.not_satisfied (e := failStage stage text e₁) hcl dag
    rw [hsat] at hgo
    cases hgo

/-- The log goes on with at most one start, at its beginning. -/
def StartsOnce (S : Setup σ) (dagOrder : List Int) (idx : Nat) (e : Engine σ) (log : List Event) :
    Prop :=
  ∃ chunk, log = e.eventLog ++ chunk ∧
    ((∀ a ∈ chunk, ∀ i name phase, a ≠ .stageStart i name phase) ∨
      ∃ stage out rest, Started S dagOrder idx e stage out ∧
        chunk = .stageStart stage.id stage.name stage.phase :: rest ∧
        ∀ a ∈ rest, ∀ i name phase, a ≠ .stageStart i name phase)

/-- What a pass adds to the log. -/
theorem loopStep_log (S : Setup σ) (dag : List Int) (idx : Nat) (m : Option String)
    (e : Engine σ) : StartsOnce S dag idx e (loopStep S dag idx m e).engine.eventLog := by
  rcases loopStep_frame S dag idx m e with
    ⟨-, hqu⟩ | ⟨stage, ⟨out, e'⟩, -, hst, hse⟩
  · obtain ⟨_, hlog⟩ := hqu.log
    exact ⟨_, hlog, .inl (by simp)⟩
  obtain ⟨inner, hin, hev⟩ := hst.run.log
  obtain ⟨tail, hlog, hta⟩ := hse.log
  refine ⟨.stageStart stage.id stage.name stage.phase :: (inner ++ tail), ?_,
    .inr ⟨stage, _, inner ++ tail, hst, rfl, ?_⟩⟩
  · rw [hlog, hin, append_assoc, cons_append]
  intro a ha i _ _
  rcases mem_append.mp ha with ha | ha
  · rcases hev.mem ha with ⟨_, rfl⟩ | rfl | rfl | ⟨_, rfl⟩ | ⟨_, _, rfl⟩ <;> simp
  · rintro rfl
    cases hta <;> simp at ha

theorem loopStep_freshStarts (dag : List Int) (idx : Nat) (m : Option String)
    (hup : UpToDate S.workflow s₀ e) (hss : FreshStarts S.workflow s₀ e.eventLog) :
    FreshStarts S.workflow s₀ (loopStep S dag idx m e).engine.eventLog := by
  obtain ⟨_, hlog, hch⟩ := loopStep_log S dag idx m e
  rw [hlog]
  intro k i name phase hk d hd
  rcases lt_or_ge k e.eventLog.length with hold | hnew
  · rw [getElem?_append_left hold] at hk
    rw [take_append_of_le_length hold.le]
    exact hss k i name phase hk d hd
  rw [getElem?_append_right hnew] at hk
  rcases hch with hno | ⟨stage, out, rest, hst, rfl, hre⟩
  · exact absurd rfl (hno _ (mem_of_getElem? hk) i name phase)
  cases hof : k - e.eventLog.length with
  | zero =>
    rw [hof] at hk
    cases hk
    have hk' : k = e.eventLog.length := by omega
    rw [hk', take_left']
    · rw [S.workflow.dependsOn_getStage hst.found] at hd
      exact hup d (all_eq_true.mp hst.ready d hd)
    · rfl
  | succ =>
    rw [hof] at hk
    exact absurd rfl (hre _ (mem_of_getElem? hk) i name phase)

theorem loopFor_freshStarts (n : Nat)
    (hfr : ∀ n idx' m' e', loopPasses S dag n idx m e = some (idx', m', e') →
      SettlesFresh S dag idx' e')
    (hup : UpToDate S.workflow s₀ e) (hss : FreshStarts S.workflow s₀ e.eventLog) :
    FreshStarts S.workflow s₀ (loopFor S dag n idx m e).eventLog := by
  induction n generalizing idx m e with
  | zero => exact hss
  | succ n ih =>
    have hpa := loopStep_freshStarts dag idx m hup hss
    rw [loopFor]
    split
    · rename_i idx' m' e' hst
      rw [hst] at hpa
      refine ih ?_ ((Pass.of_next hst).upToDate hup (hfr 0 _ _ _ rfl)) hpa
      intro n idx₁ m₁ e₁ hps
      exact hfr (n + 1) idx₁ m₁ e₁ (by rw [loopPasses, hst]; exact hps)
    all_goals
      rename_i hst
      rwa [hst] at hpa

end

theorem foldl_assumeCompleted_results (ids : List Int) (s : WorkflowState) :
    (ids.foldl assumeCompleted s).stageResults = s.stageResults := by
  induction ids generalizing s with
  | nil => rfl
  | cons _ _ ih =>
    rw [foldl_cons, ih]
    unfold assumeCompleted
    split <;> rfl

/-- **Dependency freshness.** In every sequential run of a new engine whose
passes all settle fresh, a stage starts only when the latest execution of each
dependency in this run passed (or was an accepted rejection), or the dependency
was not executed in this run and taken over as passed. An engine without stored
results has nothing to take over. -/
theorem execute_starts_fresh (S : Setup σ) (dagOrder : List Int) (fromStage : Option Int)
    (e₀ : Engine σ) (hdag : S.workflow.buildDagOrder = .ok dagOrder)
    (hseq : schedulesParallel S dagOrder (startIndex dagOrder fromStage)
      (prepareRun S dagOrder fromStage e₀).state = false) (hnew : e₀.eventLog = [])
    (hfresh : ∀ n idx m e, loopPasses S dagOrder n (startIndex dagOrder fromStage) none
      (prepareRun S dagOrder fromStage e₀) = some (idx, m, e) → SettlesFresh S dagOrder idx e)
    (fuel k : Nat) (i : Int) (name phase : String)
    (hstart : (executeFor S fuel fromStage e₀).eventLog[k]? = some (.stageStart i name phase)) :
    ∀ d ∈ S.workflow.dependsOn i, Current S.workflow (prepareRun S dagOrder fromStage e₀).state
        ((executeFor S fuel fromStage e₀).eventLog.take k) d ∧
      ((∀ j, e₀.state.stageResults j = none) →
        Fresh S.workflow ((executeFor S fuel fromStage e₀).eventLog.take k) d) := by
  have hex : executeFor S fuel fromStage e₀ =
      loopFor S dagOrder fuel (startIndex dagOrder fromStage) none
        (prepareRun S dagOrder fromStage e₀) := by
    rw [executeFor, hdag]
    simp only [hseq, Bool.false_eq_true, if_false]
  have hlog : (prepareRun S dagOrder fromStage e₀).eventLog =
      [.workflowStart S.workflow.name S.workflow.stages.length] := by
    simp [prepareRun, emit, hnew]
  have hup : UpToDate S.workflow (prepareRun S dagOrder fromStage e₀).state
      (prepareRun S dagOrder fromStage e₀) := by
    intro d hd
    refine .inr ⟨?_, hd⟩
    rw [hlog]
    rfl
  have hss : FreshStarts S.workflow (prepareRun S dagOrder fromStage e₀).state
      (prepareRun S dagOrder fromStage e₀).eventLog := by
    intro k i _ _ hk
    rw [hlog] at hk
    cases k with
    | zero => cases hk
    | succ => simp at hk
  intro d hd
  have hcu := loopFor_freshStarts fuel hfresh hup hss
  rw [← hex] at hcu
  refine ⟨hcu k i name phase hstart d hd, fun hno => ?_⟩
  rcases hcu k i name phase hstart d hd with hd | ⟨-, hsat⟩
  · exact hd
  have hre : (prepareRun S dagOrder fromStage e₀).state.stageResults d = none := by
    show (foldl assumeCompleted _ _).stageResults d = none
    rw [foldl_assumeCompleted_results]
    exact (congrFun (initStatuses_state _ _).2 d).trans (hno d)
  simp [dependencySatisfied, getStageResult, hre] at hsat

/-- The deployment starts with the review approved. -/
theorem review_starts_fresh :
    let log := (executeFor reviewSetup 4 none (.fresh reviewSetup none ())).eventLog
    log[7]? = some (.stageStart 3 "deploy" "") ∧ 2 ∈ reviewWorkflow.dependsOn 3 ∧
      Fresh reviewWorkflow (log.take 7) 2 := by
  have hdag : reviewSetup.workflow.buildDagOrder = .ok [1, 2, 3] := by decide +kernel
  have hfa : ∀ stage ∈ reviewWorkflow.stages, stage.onError = .fail := by decide
  have hst : (executeFor reviewSetup 4 none (.fresh reviewSetup none ())).eventLog[7]? =
      some (.stageStart 3 "deploy" "") := by decide +kernel
  refine ⟨hst, by decide, ?_⟩
  refine (execute_starts_fresh reviewSetup [1, 2, 3] none (.fresh reviewSetup none ()) hdag
    rfl rfl ?_ 4 7 3 _ _ hst 2 (by decide)).2 (fun _ => rfl)
  intro n _ m e _ stage _ _ h _ hfl
  exact absurd (hfa stage (reviewWorkflow.getStage_some h.found).1) hfl

/-- A build that times out when it is repeated for a rejected review. -/
def reviewedBuild : Setup Nat where
  workflow := {
    name := "reviewed build"
    stages := [
      { id := 1, name := "Plan", kind := .action, uses := "plan" },
      { id := 2, name := "Build", kind := .action, uses := "build", dependsOn := [1]
        onError := .rollback },
      { id := 3, name := "Review", kind := .gate, dependsOn := [2], onError := .rollback }]
    distinct := by decide }
  stageRunner := some {
    run := fun _ _ env => (.returned { success := true }, env)
    runAction := fun stage _ env =>
      if stage.id = 2 then
        (if env = 0 then .returned { success := true } else .timedOut, env + 1)
      else (.returned { success := true }, env)
    runGate := fun _ _ env => (.returned { approved := env = 2 }, env)
    runDecision := fun _ _ env => (.returned {}, env) }
  validateAll := fun _ env => ([], env)
  restoreSnapshot := fun _ env => (true, env)

/-- The second review starts although the latest build has timed out. -/
theorem reviewedBuild_stale :
    let log := (executeFor reviewedBuild 9 none (.fresh reviewedBuild none 0)).eventLog
    ∃ k, log[k]? = some (.stageStart 3 "Review" "") ∧ 2 ∈ reviewedBuild.workflow.dependsOn 3 ∧
      lastEnding 2 (log.take k) = some .failed := by
  exact ⟨11, by decide +kernel⟩

/-! ## §4 Runs that recover -/

/-- The pass at `idx` triggers a rollback: its gate is rejected or its stage
fails, and the loop goes back. -/
def RollsBackAt (S : Setup σ) (dagOrder : List Int) (idx : Nat) (e : Engine σ) : Prop :=
  ∃ stage out, Started S dagOrder idx e stage out ∧ match out.1 with
    | .ok r => TurnsBack stage r
    | .error err => (∃ text, err = .stageFailure text) ∧ stage.onError = .rollback

/-- The pass goes on after a rejection it does not accept, a failure or a timeout. -/
def Disturbed (S : Setup σ) (dagOrder : List Int) (idx : Nat) (e : Engine σ) : Prop :=
  ∃ stage out, Started S dagOrder idx e stage out ∧ match out.1 with
    | .ok r => TurnsBack stage r
    | .error err => err.ofStage = true ∧ stage.onError ≠ .fail

/-- The passes of a run that rolled back, came to the end of the order, and in
which the latest execution of every stage passed. -/
structure Recovered (S : Setup σ) (dagOrder : List Int) (start n idx : Nat)
    (e₀ e : Engine σ) : Prop where
  rolled : ∃ k < n, ∃ idx' m' e', loopPasses S dagOrder k start none e₀ = some (idx', m', e') ∧
    RollsBackAt S dagOrder idx' e'
  ended : dagOrder[idx]? = none
  passed : ∀ i ∈ S.workflow.stageIds,
    lastEnding i (e.eventLog.drop e₀.eventLog.length) = some .passed

section

theorem Started.unique {stage' : StageNode} {out out' : StageOutcome σ}
    (h : Started S dag idx e stage out) (h' : Started S dag idx e stage' out') :
    stage = stage' ∧ out = out' := by
  have hid : stage.id = stage'.id := some.inj (h.at_index.symm.trans h'.at_index)
  have hst : stage = stage' := by
    have hfo := h'.found
    rw [← hid, h.found] at hfo
    exact some.inj hfo
  subst hst
  exact ⟨rfl, h.settled.symm.trans h'.settled⟩

theorem RollsBackAt.disturbed (h : RollsBackAt S dag idx e) : Disturbed S dag idx e := by
  obtain ⟨stage, ⟨out, e'⟩, hst, hba⟩ := h
  refine ⟨stage, (out, e'), hst, ?_⟩
  cases out with
  | ok => exact hba
  | error =>
    obtain ⟨⟨_, rfl⟩, hro⟩ := hba
    exact ⟨rfl, by simp [hro]⟩

/-- The error of the run is unset after a pass exactly when it was unset before
and the pass was not disturbed: no pass takes an error back. -/
theorem Pass.flag (h : Pass S dag idx m e (.next idx' m' e')) :
    m' = none ↔ m = none ∧ ¬ Disturbed S dag idx e := by
  have hca : ∀ {stage : StageNode} {r : StageResult} {e₁ : Engine σ},
      Started S dag idx e stage (.ok r, e₁) → ¬ TurnsBack stage r →
      ¬ Disturbed S dag idx e := by
    rintro _ r _ h hba ⟨_, _, h', hdi⟩
    obtain ⟨rfl, rfl⟩ := h.unique h'
    exact hba hdi
  have hil : (∀ stage out, ¬ Started S dag idx e stage out) →
      ¬ Disturbed S dag idx e := fun hno ⟨stage, out, h', _⟩ => hno stage out h'
  cases h with
  | absent _ _ hi hst =>
    refine (and_iff_left (hil fun stage out h' => ?_)).symm
    have hid := some.inj (hi.symm.trans h'.at_index)
    rw [hid, h'.found] at hst
    cases hst
  | skipped _ _ hi hst hde =>
    refine (and_iff_left (hil fun stage' out h' => ?_)).symm
    have hid := some.inj (hi.symm.trans h'.at_index)
    rw [hid, h'.found] at hst
    cases hst
    rw [h'.ready] at hde
    cases hde
  | completed _ _ _ h hok => exact (and_iff_left (hca h fun hba => hok ⟨hba.1, hba.2.1⟩)).symm
  | accepted _ _ _ h hac =>
    refine (and_iff_left (hca h fun hba => ?_)).symm
    rcases hba.2.2 with hro | hto
    · rw [hac.2.2.1] at hro
      cases hro
    · rw [hac.2.2.2] at hto
      cases hto
  | turnedBack stage _ _ h hba => exact iff_of_false (by simp) (fun hc => hc.2 ⟨stage, _, h, hba⟩)
  | passedOver stage _ _ h herr hfa =>
    exact iff_of_false (by simp) (fun hc => hc.2 ⟨stage, _, h, herr, hfa⟩)
  | rolledBack stage _ _ h hba =>
    exact iff_of_false (by simp) (fun hc => hc.2 ⟨stage, _, h, rfl, by simp [hba]⟩)

/-- Over any number of passes the error stays unset exactly when none was disturbed. -/
theorem loopPasses_flag_iff {n : Nat} (h : loopPasses S dag n idx m e = some (idx', m', e')) :
    m' = none ↔ m = none ∧ ∀ k < n, ∀ idx₁ m₁ e₁,
      loopPasses S dag k idx m e = some (idx₁, m₁, e₁) → ¬ Disturbed S dag idx₁ e₁ := by
  induction n generalizing idx m e with
  | zero =>
    cases h
    simp
  | succ _ ih =>
    obtain ⟨_, _, _, hst, hre⟩ := loopPasses_next h
    rw [ih hre, (Pass.of_next hst).flag, and_assoc]
    refine and_congr_right fun _ => ⟨?_, fun hall => ⟨?_, ?_⟩⟩
    · rintro ⟨hfi, hre⟩ k _ idx₁ m₁ e₁ hpa
      cases k with
      | zero =>
        cases hpa
        exact hfi
      | succ k =>
        rw [loopPasses, hst] at hpa
        exact hre k (by omega) idx₁ m₁ e₁ hpa
    · exact hall 0 (by omega) idx m e rfl
    · intro k _ idx₁ m₁ e₁ hpa
      exact hall (k + 1) (by omega) idx₁ m₁ e₁ (by rw [loopPasses, hst]; exact hpa)

/-- A loop that has come to the end of the order returns. -/
theorem runLoop_of_loopPasses {n fuel : Nat}
    (h : loopPasses S dag n idx m e = some (idx', m', e')) (hend : dag[idx']? = none)
    (hfu : n < fuel) : runLoop S dag fuel idx m e = some (.ok m', e') := by
  induction n generalizing fuel idx m e with
  | zero =>
    cases h
    cases fuel with
    | zero => exact absurd hfu (Nat.not_lt_zero _)
    | succ => rw [runLoop, loopStep, hend]
  | succ _ ih =>
    cases fuel with
    | zero => exact absurd hfu (Nat.not_lt_zero _)
    | succ =>
      obtain ⟨_, _, _, hst, hre⟩ := loopPasses_next h
      rw [runLoop, hst]
      exact ih hre (by omega)

end

/-- **What a run that comes to its end reports.** It is a success exactly when
no pass was disturbed on the way; so a run that rolled back is never one, however
well it recovered. -/
theorem execute_success_iff_undisturbed (S : Setup σ) (dagOrder : List Int)
    (fromStage : Option Int) (e₀ : Engine σ) (hdag : S.workflow.buildDagOrder = .ok dagOrder)
    (hseq : schedulesParallel S dagOrder (startIndex dagOrder fromStage)
      (prepareRun S dagOrder fromStage e₀).state = false)
    (n idx : Nat) (m : Option String) (e : Engine σ)
    (hpasses : loopPasses S dagOrder n (startIndex dagOrder fromStage) none
      (prepareRun S dagOrder fromStage e₀) = some (idx, m, e))
    (hend : dagOrder[idx]? = none) (fuel : Nat) (hfuel : n < fuel) :
    ∃ r e', execute S fuel fromStage e₀ = some (.ok r, e') ∧
      (r.success = true ↔ ∀ k < n, ∀ idx₁ m₁ e₁,
        loopPasses S dagOrder k (startIndex dagOrder fromStage) none
          (prepareRun S dagOrder fromStage e₀) = some (idx₁, m₁, e₁) →
        ¬ Disturbed S dagOrder idx₁ e₁) ∧
      (Recovered S dagOrder (startIndex dagOrder fromStage) n idx
        (prepareRun S dagOrder fromStage e₀) e → r.success = false) := by
  have hrun := runLoop_of_loopPasses hpasses hend hfuel
  have hex : execute S fuel fromStage e₀ =
      some (.ok (runResult S m (closeRun m e).state.conversationId (closeRun m e)),
        closeRun m e) := by
    rw [execute, hdag]
    simp only [hseq, Bool.false_eq_true, if_false, executeSequential, hrun, map_some]
  have hfl : m = none ↔ ∀ k < n, ∀ idx₁ m₁ e₁,
      loopPasses S dagOrder k (startIndex dagOrder fromStage) none
        (prepareRun S dagOrder fromStage e₀) = some (idx₁, m₁, e₁) →
      ¬ Disturbed S dagOrder idx₁ e₁ := by
    rw [loopPasses_flag_iff hpasses, and_iff_right rfl]
  refine ⟨_, _, hex, ?_, ?_⟩
  · rw [← hfl]
    exact isNone_iff_eq_none
  intro hre
  obtain ⟨k, hk, idx', m', e', hrc, hba⟩ := hre.rolled
  refine Bool.eq_false_iff.mpr fun hsu => ?_
  exact hfl.mp (isNone_iff_eq_none.mp hsu) k hk idx' m' e' hrc hba.disturbed

/-- The reviewed run comes to its end in three passes. -/
theorem review_success_iff : ∃ r e',
    execute reviewSetup 4 none (fresh reviewSetup none ()) = some (.ok r, e') ∧
    (r.success = true ↔ ∀ k < 3, ∀ idx m e, loopPasses reviewSetup [1, 2, 3] k 0 none
        (prepareRun reviewSetup [1, 2, 3] none (fresh reviewSetup none ())) =
          some (idx, m, e) → ¬ Disturbed reviewSetup [1, 2, 3] idx e) := by
  have hdag : reviewSetup.workflow.buildDagOrder = .ok [1, 2, 3] := by decide +kernel
  have hidx : (loopPasses reviewSetup [1, 2, 3] 3 0 none
      (prepareRun reviewSetup [1, 2, 3] none (.fresh reviewSetup none ()))).map (·.1) =
        some 3 := by decide +kernel
  obtain ⟨⟨_, m, e⟩, hpa, rfl⟩ := map_eq_some_iff.mp hidx
  obtain ⟨r, e', hex, hsu, -⟩ := execute_success_iff_undisturbed reviewSetup [1, 2, 3]
    none (.fresh reviewSetup none ()) hdag rfl 3 3 m e hpa rfl 4 (by decide)
  exact ⟨r, e', hex, hsu⟩

/-- A build that fails the first time and goes back to the plan. -/
def retriedBuild : Setup Nat where
  workflow := {
    name := "retried build"
    stages := [
      { id := 1, name := "Plan", kind := .action, uses := "plan" },
      { id := 2, name := "Build", kind := .action, uses := "build", dependsOn := [1]
        onError := .rollback }]
    distinct := by decide }
  stageRunner := some {
    run := fun _ _ env => (.returned { success := true }, env)
    runAction := fun _ _ env => (.returned { success := env ≠ 1 }, env + 1)
    runGate := fun _ _ env => (.returned { approved := true }, env)
    runDecision := fun _ _ env => (.returned {}, env) }
  validateAll := fun _ env => ([], env)
  restoreSnapshot := fun _ env => (true, env)

/-- The build fails, is repeated and passes; the run is reported as failed. -/
theorem retriedBuild_reported_failed : ∃ m e r e', loopPasses retriedBuild [1, 2] 4 0 none
      (prepareRun retriedBuild [1, 2] none (fresh retriedBuild none 0)) = some (2, m, e) ∧
    Recovered retriedBuild [1, 2] 0 4 2
      (prepareRun retriedBuild [1, 2] none (fresh retriedBuild none 0)) e ∧
    execute retriedBuild 5 none (fresh retriedBuild none 0) = some (.ok r, e') ∧
    r.success = false := by
  have hrc : (loopPasses retriedBuild [1, 2] 4 0 none
      (prepareRun retriedBuild [1, 2] none (.fresh retriedBuild none 0))).map
        (fun out => (out.1, [1, 2].map fun i => lastEnding i (out.2.2.eventLog.drop 1))) =
      some (2, [some .passed, some .passed]) := by decide +kernel
  obtain ⟨⟨_, m, e⟩, hpa, hout⟩ := map_eq_some_iff.mp hrc
  obtain ⟨rfl, hla⟩ := Prod.mk.inj hout
  have hro : RollsBackAt retriedBuild [1, 2] 1 (loopFor retriedBuild [1, 2] 1 0 none
        (prepareRun retriedBuild [1, 2] none (.fresh retriedBuild none 0))) := by
    refine ⟨{ id := 2, name := "Build", kind := .action, uses := "build", dependsOn := [1]
              onError := .rollback }, _, ⟨rfl, rfl, rfl, by decide +kernel, rfl⟩, ?_⟩
    exact ⟨⟨_, rfl⟩, rfl⟩
  have hre : ((execute retriedBuild 5 none (.fresh retriedBuild none 0)).bind
      (·.1.toOption)).map (·.success) = some false := by decide +kernel
  obtain ⟨r, hbi, hsu⟩ := map_eq_some_iff.mp hre
  obtain ⟨⟨_ | _, e'⟩, hex, hok⟩ := bind_eq_some_iff.mp hbi
  · cases hok
  cases hok
  refine ⟨m, e, r, e', hpa, ⟨⟨1, by decide, 1, none, _, rfl, hro⟩, rfl, ?_⟩, hex, hsu⟩
  simp only [map_cons, map_nil, cons.injEq, and_true] at hla
  intro i hi
  have hca : i = 1 ∨ i = 2 := by simpa [WorkflowSchema.stageIds, retriedBuild] using hi
  rcases hca with rfl | rfl
  · exact hla.1
  · exact hla.2

end Orchestratord.Workflow
