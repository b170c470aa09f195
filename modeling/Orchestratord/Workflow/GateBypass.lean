import Orchestratord.Workflow.Resume
import Orchestratord.Workflow.Success

/-!
# Rejected gates across resumed runs

A gate rejection is booked and checkpointed like any finished stage. A later
run that resumes past the gate therefore never asks it again, skips what depends
on it, and reports success. This file follows the verdicts through a chain of
runs joined by the checkpoint on disk: a successful run leaves no rejection
outstanding when neither its start nor one of its passes moves past a rejected
gate, and without DECISION stages exactly then.
-/

namespace Orchestratord.Workflow

open Foundation Option

variable {σ : Type}

/-! ## §1 Verdicts -/

def lastVerdict (vs : List (Int × Bool)) (g : Int) : Option Bool :=
  (vs.filterMap (fun v => if v.1 = g then some v.2 else none)).getLast?

theorem lastVerdict_append (vs ws : List (Int × Bool)) (g : Int) :
    lastVerdict (vs ++ ws) g = (lastVerdict ws g).or (lastVerdict vs g) := by
  simp [lastVerdict, List.getLast?_append]

/-- The last verdict of a gate without `on_error = skip` is a rejection. -/
structure Outstanding (w : WorkflowSchema) (vs : List (Int × Bool)) (g : StageNode) : Prop where
  mem : g ∈ w.stages
  kind : g.kind = .gate
  noSkip : g.onError ≠ .skip
  rejected : lastVerdict vs g.id = some false

variable {O : Orchestrator σ} {dag : List Int} {fuel idx : Nat} {e e' : Engine σ}
  {g : StageNode} {vs : List (Int × Bool)}

theorem Outstanding.congr {w : WorkflowSchema} {ws : List (Int × Bool)} (h : Outstanding w vs g)
    (heq : lastVerdict ws g.id = lastVerdict vs g.id) : Outstanding w ws g :=
  { h with rejected := heq.trans h.rejected }

/-! ## §2 Chains of runs -/

structure ChainState (σ : Type) where
  disk : Option Checkpoint
  verdicts : List (Int × Bool)
  env : σ

/-- What an ended or interrupted run leaves behind. -/
def ChainState.absorb (c : ChainState σ) (e : Engine σ) : ChainState σ :=
  { disk := e.checkpoint
    verdicts := c.verdicts ++ Workflow.verdicts e.eventLog
    env := e.env }

/-- The stage the loop visits at an index. -/
def stageAt (w : WorkflowSchema) (idx : Nat) : Option StageNode :=
  match w.buildDagOrder with
  | .ok dagOrder => dagOrder[idx]?.bind w.getStage
  | .error _ => none

/-- One run of the chain: to its end, cut between two passes, cut after a stage
ran but before it was booked, cut after it was booked and saved, or stopped by
`shutdown`, which saves the state of the moment. -/
inductive Link (O : Orchestrator σ) (c : ChainState σ) : ChainState σ → Prop where
  | ended (fuel : Nat) (out : Except EngineError WorkflowResult) (e : Engine σ)
      (h : run O fuel c.disk c.env = some (out, e)) : Link O c (c.absorb e)
  | cut (n idx : Nat) (m : Option String) (e : Engine σ)
      (h : runPasses O n c.disk c.env = some (idx, m, e)) : Link O c (c.absorb e)
  | cutInStage (n idx : Nat) (m : Option String) (e : Engine σ) (stage : StageNode)
      (h : runPasses O n c.disk c.env = some (idx, m, e))
      (hstage : stageAt O.workflow idx = some stage) :
      Link O c (c.absorb (executeStage O.setup stage e).2)
  | cutAfterSave (n idx : Nat) (m : Option String) (e : Engine σ) (stage : StageNode)
      (r : StageResult) (h : runPasses O n c.disk c.env = some (idx, m, e))
      (hstage : stageAt O.workflow idx = some stage)
      (hrun : (executeStage O.setup stage e).1 = .ok r) :
      Link O c (c.absorb (completeStage O.setup stage r (executeStage O.setup stage e).2))
  | stopped (n idx : Nat) (m : Option String) (e : Engine σ)
      (h : runPasses O n c.disk c.env = some (idx, m, e)) :
      Link O c { c.absorb e with disk := some (Checkpoint.ofState e.state []) }

/-- States reached from an empty disk by a chain of runs. -/
def Chained (O : Orchestrator σ) (c : ChainState σ) : Prop :=
  ∃ env, Relation.ReflTransGen (Link O) { disk := none, verdicts := [], env } c

/-! ## §3 Passing over a gate -/

/-- No outstanding gate lies before the start, is jumped over, or is skipped for
want of its dependencies. -/
structure NoPassOver (O : Orchestrator σ) (vs : List (Int × Bool)) (dagOrder : List Int)
    (start : Nat) (e : Engine σ) : Prop where
  begins : ∀ g, Outstanding O.workflow (vs ++ verdicts e.eventLog) g →
    ∀ p, dagOrder[p]? = some g.id → start ≤ p
  pass : ∀ n idx e₁ idx' e₂, loopPasses O.setup dagOrder n start none e = some (idx, none, e₁) →
    loopStep O.setup dagOrder idx none e₁ = .next idx' none e₂ →
    ∀ g, Outstanding O.workflow (vs ++ verdicts e₁.eventLog) g →
    ∀ p, dagOrder[p]? = some g.id →
      (idx < p → idx' ≤ p) ∧ (idx = p → dependenciesSatisfied e₁.state g = true)

/-- What a clean pass adds to the verdicts. -/
theorem CleanPass.verdicts_eq {S : Setup σ} {idx' : Nat} (h : CleanPass S dag idx e idx' e') :
    (verdicts e'.eventLog = verdicts e.eventLog ∧ idx' = idx + 1 ∧
      ∀ i stage, dag[idx]? = some i → S.workflow.getStage i = some stage →
        dependenciesSatisfied e.state stage = false) ∨
    ∃ i stage r, dag[idx]? = some i ∧ S.workflow.getStage i = some stage ∧
      dependenciesSatisfied e.state stage = true ∧ ResultOf stage r ∧
      verdicts e'.eventLog = verdicts e.eventLog ++ outcomeVerdict stage (.ok r) ∧
      (stage.kind ≠ .decision → idx' = idx + 1) ∧
      (stage.kind = .gate → r.status = .gateRejected → stage.onError = .skip) := by
  cases h with
  | absent _ _ hi hst =>
    refine .inl ⟨rfl, rfl, ?_⟩
    intro j _ hj hs
    rw [hi] at hj
    cases hj
    rw [hst] at hs
    cases hs
  | skipped _ _ _ hi hst hde =>
    refine .inl ⟨?_, rfl, ?_⟩
    · simp [skipStage, Engine.emit, verdicts, Event.verdict]
    intro j _ hj hs
    rw [hi] at hj
    cases hj
    rw [hst] at hs
    cases hs
    exact hde
  | ran i env stage r _ hi hst hde hrun hok =>
    have hsp := executeStage_run S stage { e with env := env }
    rw [hrun] at hsp
    refine .inr ⟨i, stage, r, hi, hst, hde, hsp.result r rfl, ?_, ?_, ?_⟩
    · rw [completeStage_eventLog, verdicts_append, hsp.verdicts]
      simp [verdicts, Event.verdict]
    · intro hki
      rw [nextIndex, if_neg hki]
    · intro hki hrej
      exact absurd ⟨hki, hrej⟩ hok
  | accepted i env stage r e₁ hi hst hde hrun hac =>
    have hsp := executeStage_run S stage { e with env := env }
    rw [hrun] at hsp
    refine .inr ⟨i, stage, r, hi, hst, hde, hsp.result r rfl, ?_,
      fun _ => rfl, fun _ _ => hac.2.2.1⟩
    show verdicts (completeStage S stage r e₁).eventLog = _
    rw [completeStage_eventLog, verdicts_append, hsp.verdicts]
    simp [verdicts, Event.verdict]

/-- The verdict of another stage leaves this gate's last verdict alone. -/
theorem lastVerdict_other (vs : List (Int × Bool)) {stage : StageNode} {g : Int}
    (hne : stage.id ≠ g) (out : Except EngineError StageResult) :
    lastVerdict (vs ++ outcomeVerdict stage out) g = lastVerdict vs g := by
  have hnil : lastVerdict (outcomeVerdict stage out) g = none := by
    unfold outcomeVerdict
    split
    · split <;> simp [lastVerdict, hne]
    · rfl
  rw [lastVerdict_append, hnil, none_or]

/-- A clean pass at an outstanding gate that ran gets its approval. -/
theorem lastVerdict_ran (vs : List (Int × Bool)) {r : StageResult} (hki : g.kind = .gate)
    (hsk : g.onError ≠ .skip) (hof : ResultOf g r)
    (hcl : g.kind = .gate → r.status = .gateRejected → g.onError = .skip) :
    lastVerdict (vs ++ outcomeVerdict g (.ok r)) g.id = some true := by
  have hap : r.status = .gateApproved := (hof.gate hki).resolve_right fun hrej => hsk (hcl hki hrej)
  simp [outcomeVerdict, hki, hap, lastVerdict]

/-! ## §4 Sufficiency -/

variable (ht : Topological O.workflow dag)

include ht

theorem NoPassOver.next {idx' : Nat} (h : NoPassOver O vs dag idx e)
    (hsp : loopStep O.setup dag idx none e = .next idx' none e') : NoPassOver O vs dag idx' e' where
  begins := by
    intro g hg p hp
    obtain ⟨s, hs⟩ := ht.exists_getStage (List.mem_of_getElem? hp)
    have hsg : s = g := by
      have := O.workflow.getStage_of_mem hg.mem
      rw [this] at hs
      exact (some.inj hs).symm
    subst hsg
    rcases (CleanPass.of_loopStep hsp).verdicts_eq with
      ⟨hve, hidx, hde⟩ | ⟨i, stage, r, hi, hst, hde, hof, hve, -, hcl⟩
    · have hg' : Outstanding O.workflow (vs ++ verdicts e.eventLog) s := by
        rwa [hve] at hg
      obtain ⟨-, hsk⟩ := h.pass 0 idx e idx' e' rfl hsp s hg' p hp
      have hle := h.begins s hg' p hp
      have hne : idx ≠ p := by
        intro heq
        rw [← heq] at hp
        have hfa := hde s.id s hp hs
        rw [hsk heq] at hfa
        cases hfa
      omega
    · by_cases hid : stage.id = s.id
      · have hsa : stage = s := by
          rw [← (O.workflow.getStage_some hst).2, hid] at hst
          have hst' : O.workflow.getStage s.id = some stage := hst
          rw [hs] at hst'
          exact (some.inj hst').symm
        subst hsa
        have happ := lastVerdict_ran (vs ++ verdicts e.eventLog) hg.kind hg.noSkip hof hcl
        have hrej := hg.rejected
        rw [hve, ← List.append_assoc, happ] at hrej
        cases hrej
      · have hg' : Outstanding O.workflow (vs ++ verdicts e.eventLog) s := by
          apply hg.congr
          rw [hve, ← List.append_assoc, lastVerdict_other _ hid]
        have hle := h.begins s hg' p hp
        have hne : idx ≠ p := by
          intro heq
          rw [← heq, hi] at hp
          have hst' := (O.workflow.getStage_some hst).2
          exact hid (hst'.trans (some.inj hp))
        exact (h.pass 0 idx e idx' e' rfl hsp s hg' p hp).1 (by omega)
  pass := by
    intro n idx₁ e₁ idx₂ e₂ hpa
    apply h.pass (n + 1) idx₁ e₁ idx₂ e₂
    rwa [loopPasses, hsp]

variable (hrun : runLoop O.setup dag fuel idx none e = some (.ok none, e'))
include hrun

theorem NoPassOver.sound (h : NoPassOver O vs dag idx e) :
    ∀ g, ¬ Outstanding O.workflow (vs ++ verdicts e'.eventLog) g := by
  induction fuel generalizing idx e with
  | zero => cases hrun
  | succ _ ih =>
    rcases runLoop_clean hrun with ⟨hlen, rfl⟩ | ⟨rest, idx₁, e₁, ⟨⟩, hsp, hre⟩
    · intro g hg
      -- every gate has a position, and the loop has passed the last one
      have hmem : g.id ∈ dag := ht.perm.mem_iff.mpr (List.mem_map_of_mem hg.mem)
      obtain ⟨p, hp⟩ := List.mem_iff_getElem?.mp hmem
      obtain ⟨_, -⟩ := getElem?_eq_some_iff.mp hp
      have := h.begins g hg p hp
      omega
    · exact ih hre (h.next ht hsp)

/-! ## §5 Necessity without decisions -/

/-- Past the gate the verdict stays: no later pass comes back to it. -/
theorem outstanding_persists
    (hki : ∀ s ∈ O.workflow.stages, s.kind ≠ .decision) {p : Nat} (hp : dag[p]? = some g.id)
    (hidx : p < idx) (hg : Outstanding O.workflow (vs ++ verdicts e.eventLog) g) :
    Outstanding O.workflow (vs ++ verdicts e'.eventLog) g := by
  obtain ⟨-, -, -, hend⟩ := runLoop_success_induct
    (fun idx e => p < idx ∧ Outstanding O.workflow (vs ++ verdicts e.eventLog) g)
    (by
      rintro idx e _ _ ⟨_, hout⟩ hpa
      rcases hpa.verdicts_eq with
        ⟨hve, hidx', -⟩ | ⟨i, stage, r, hi, hst, -, -, hve, hnx, -⟩
      · exact ⟨by omega, by rwa [hve]⟩
      obtain ⟨hmem, hid⟩ := O.workflow.getStage_some hst
      have hidx' := hnx (hki stage hmem)
      have hne : stage.id ≠ g.id := by
        intro heq
        have hsa : dag[idx]? = dag[p]? := by rw [hi, hp, ← hid, heq]
        have hbo := (getElem?_eq_some_iff.mp hi).1
        have := (List.getElem?_inj hbo ht.nodup).mp hsa
        omega
      refine ⟨by omega, hout.congr ?_⟩
      rw [hve, ← List.append_assoc, lastVerdict_other _ hne])
    ⟨hidx, hg⟩ hrun
  exact hend

theorem NoPassOver.of_clear (hki : ∀ s ∈ O.workflow.stages, s.kind ≠ .decision)
    (hcl : ∀ g, ¬ Outstanding O.workflow (vs ++ verdicts e'.eventLog) g) :
    NoPassOver O vs dag idx e where
  begins := by
    intro g hg p hp
    by_contra hlt
    exact hcl g (outstanding_persists ht hrun hki hp (by omega) hg)
  pass := by
    intro n _ _ idx₂ e₂ hpa hsp g hg p hp
    obtain ⟨fuel', -, hre⟩ := runLoop_after_passes hrun hpa
    have hre₂ : ∃ fuel₂, runLoop O.setup dag fuel₂ idx₂ none e₂ = some (.ok none, e') := by
      cases fuel' with
      | zero => cases hre
      | succ fuel₂ =>
        rw [runLoop, hsp] at hre
        exact ⟨fuel₂, hre⟩
    obtain ⟨_, hre₂⟩ := hre₂
    rcases (CleanPass.of_loopStep hsp).verdicts_eq with
      ⟨hve, hidx, -⟩ | ⟨i, stage, r, hi, hst, hde, -, -, hnx, -⟩
    · refine ⟨fun _ => by omega, fun heq => ?_⟩
      exact absurd (outstanding_persists ht hre₂ hki hp (by omega) (by rwa [hve])) (hcl g)
    obtain ⟨hmem, _⟩ := O.workflow.getStage_some hst
    refine ⟨fun _ => by rw [hnx (hki stage hmem)]; omega, fun heq => ?_⟩
    rw [← heq, hi] at hp
    have hsa : O.workflow.getStage g.id = some stage := by
      rwa [← some.inj hp]
    rw [O.workflow.getStage_of_mem hg.mem] at hsa
    rwa [some.inj hsa]

omit hrun ht

/-- **Rejections outstanding after a successful run.** In a chain of runs, a run
that succeeds leaves no rejected gate outstanding if it never passes over one;
in a workflow without DECISION stages, exactly then. -/
theorem run_leaves_no_rejection (O : Orchestrator σ) (c : ChainState σ) (_hc : Chained O c)
    (fuel : Nat) (r : WorkflowResult) (e' : Engine σ)
    (hrun : run O fuel c.disk c.env = some (.ok r, e')) (hs : r.success = true)
    (dagOrder : List Int) (start : Nat) (e : Engine σ)
    (hbegin : beginRun O c.disk c.env = .ok (dagOrder, start, e)) :
    (NoPassOver O c.verdicts dagOrder start e →
      ∀ g, ¬ Outstanding O.workflow (c.absorb e').verdicts g) ∧
    ((∀ s ∈ O.workflow.stages, s.kind ≠ .decision) →
      ((∀ g, ¬ Outstanding O.workflow (c.absorb e').verdicts g) ↔
        NoPassOver O c.verdicts dagOrder start e)) := by
  obtain ⟨_, _, _, e₁, hbe', hlo, rfl⟩ := run_success hrun hs
  rw [hbegin] at hbe'
  cases hbe'
  have ht : Topological O.workflow dagOrder := .of_buildDagOrder (beginRun_ok hbegin).1
  have hend : (c.absorb { closeRun none e₁ with checkpoint := none }).verdicts =
      c.verdicts ++ verdicts e₁.eventLog := by
    show c.verdicts ++ verdicts (closeRun none e₁).eventLog = _
    rw [closeRun_verdicts]
  rw [hend]
  have hso : NoPassOver O c.verdicts dagOrder start e →
      ∀ g, ¬ Outstanding O.workflow (c.verdicts ++ verdicts e₁.eventLog) g :=
    fun h => h.sound ht hlo
  exact ⟨hso, fun hki => ⟨.of_clear ht hlo hki, hso⟩⟩

/-! ## §6 The review workflow, approved and rejected -/

def ChainState.blank : ChainState Unit := { disk := none, verdicts := [], env := () }

theorem Chained.blank (O : Orchestrator Unit) : Chained O .blank := ⟨(), .refl⟩

def approvedReview : Orchestrator Unit where
  workflow := reviewWorkflow
  stageRunner := approvingRunner
  validateAll := fun _ env => ([], env)
  restoreSnapshot := fun _ env => (true, env)
  writeCheckpoint := fun env => (true, env)

/-- The same workflow under a reviewer who rejects. -/
def rejectedReview : Orchestrator Unit where
  workflow := reviewWorkflow
  stageRunner := { approvingRunner with
    runGate := fun _ _ env => (.returned { approved := false, reason := "no" }, env) }
  validateAll := fun _ env => ([], env)
  restoreSnapshot := fun _ env => (true, env)
  writeCheckpoint := fun env => (true, env)

theorem run_leaves_no_rejection_approved : ∃ r e' dagOrder start e,
    run approvedReview 4 none () = some (.ok r, e') ∧ r.success = true ∧
    beginRun approvedReview none () = .ok (dagOrder, start, e) ∧
    NoPassOver approvedReview [] dagOrder start e := by
  have hrun : succeeded (run approvedReview 4 none ()) = true := by decide +kernel
  have hve : (run approvedReview 4 none ()).map
      (fun out => verdicts out.2.eventLog) = some [(2, true)] := by decide +kernel
  obtain ⟨r, e', h, hs⟩ := exists_of_succeeded hrun
  obtain ⟨dagOrder, start, e, -, hbe, -⟩ := run_success h hs
  rw [h] at hve
  refine ⟨r, e', dagOrder, start, e, h, hs, hbe, ?_⟩
  refine ((run_leaves_no_rejection approvedReview .blank (.blank _) 4 r e' h hs
    dagOrder start e hbe).2 (by decide)).mp ?_
  intro g hg
  have hrej := hg.rejected
  have hvs : (ChainState.blank.absorb e').verdicts = [(2, true)] := some.inj hve
  rw [hvs] at hrej
  by_cases hid : (2 : Int) = g.id
  all_goals simp [lastVerdict] at hrej

/-- The chain after the first run of the rejected review: it failed and saved. -/
def afterRejection : ChainState Unit :=
  match run rejectedReview 4 none () with
  | some (_, e) => ChainState.blank.absorb e
  | none => .blank

theorem chained_afterRejection : Chained rejectedReview afterRejection := by
  refine ⟨(), ?_⟩
  unfold afterRejection
  split
  · rename_i out e h
    exact .single (.ended 4 out e h)
  · exact .refl

/-- The second run resumes at the deployment, skips it because its review was
rejected, and reports success. -/
theorem rejected_review_bypassed : ∃ c r e', Chained rejectedReview c ∧
    run rejectedReview 4 c.disk c.env = some (.ok r, e') ∧ r.success = true ∧
    ∃ g, Outstanding rejectedReview.workflow (c.absorb e').verdicts g := by
  have hrun : succeeded (run rejectedReview 4 afterRejection.disk afterRejection.env) = true := by
    decide +kernel
  have hve : (run rejectedReview 4 afterRejection.disk afterRejection.env).map
      (fun out => lastVerdict (afterRejection.absorb out.2).verdicts 2) = some (some false) := by
    decide +kernel
  obtain ⟨r, e', h, hs⟩ := exists_of_succeeded hrun
  rw [h] at hve
  refine ⟨afterRejection, r, e', chained_afterRejection, h, hs,
    { id := 2, name := "review", kind := .gate, dependsOn := [1] }, ?_⟩
  exact ⟨by decide, rfl, by decide, some.inj hve⟩

end Orchestratord.Workflow
