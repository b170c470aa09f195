import Orchestratord.Workflow.Passes

/-!
# Decision loops

A decision may send the loop back to an earlier stage. Two things are there to
end such loops: `max_times`, a bound per outcome, and the convergence check.

The bound works: without rollbacks, a workflow whose backward outcomes all have
one always comes to an end. The convergence check looks at the last records of
all stages together, so decisions that alternate are never found degenerate.
-/

namespace Orchestratord.Workflow

open Event
open List hiding count getElem?_eq_some_iff

variable {σ : Type}

/-! ## §1 The convergence check -/

namespace DecisionHistory

variable (records : List DecisionRecord) (outcome : String) (stageId : Int) (window : Nat)

/-- The stage has decided at least `window` times, the last `window` times for
this outcome. -/
def Degenerate : Prop :=
  let own := records.filter (fun r => r.stageId = stageId)
  window ≤ own.length ∧ ∀ r ∈ own.drop (own.length - window), r.outcome = outcome

instance : Decidable (Degenerate records outcome stageId window) :=
  inferInstanceAs (Decidable (_ ∧ _))

/-- The last `window` records are of one stage. -/
def LastOwn : Prop := ∀ r ∈ records.drop (records.length - window), r.stageId = stageId

variable {records : List DecisionRecord} {outcome : String} {stageId : Int} {window : Nat}

theorem lastRecords_natCast (hwi : 1 ≤ window) :
    lastRecords records window = records.drop (records.length - window) := by
  rw [lastRecords, if_pos (by omega), Int.toNat_natCast]

theorem isDegenerate_iff (hwi : 1 ≤ window) : isDegenerate records outcome stageId window = true ↔
      window ≤ records.length ∧ LastOwn records stageId window ∧
        ∀ r ∈ records.drop (records.length - window), r.outcome = outcome := by
  rw [isDegenerate, lastRecords_natCast hwi]
  have hlen : (records.drop (records.length - window)).length ≤ window := by
    rw [length_drop]
    omega
  have hfi := length_filter_le (fun r => decide (r.stageId = stageId))
    (records.drop (records.length - window))
  constructor
  · intro h
    split at h
    · cases h
    -- the filter keeps `window` of at most `window` records, so it keeps them all
    have hfu : ((records.drop (records.length - window)).filter
        (fun r => decide (r.stageId = stageId))).length =
        (records.drop (records.length - window)).length := by omega
    have hown : LastOwn records stageId window := by
      intro r hr
      simpa using length_filter_eq_length_iff.mp hfu r hr
    refine ⟨by rw [length_drop] at hlen hfu; omega, hown, ?_⟩
    intro r hr
    have hall := all_eq_true.mp h r (mem_filter.mpr ⟨hr, by simpa using hown r hr⟩)
    simpa using hall
  · rintro ⟨_, hown, hall⟩
    have hse : (records.drop (records.length - window)).filter
        (fun r => decide (r.stageId = stageId)) = records.drop (records.length - window) :=
      filter_eq_self.mpr (fun r hr => by simpa using hown r hr)
    rw [hse, if_neg (by rw [length_drop]; omega), all_eq_true]
    intro r hr
    simpa using hall r hr

/-- When the last records are the stage's own, they are the last of its own. -/
theorem own_drop_of_lastOwn (hlo : window ≤ records.length)
    (hown : LastOwn records stageId window) :
    let own := records.filter (fun r => r.stageId = stageId)
    window ≤ own.length ∧
      own.drop (own.length - window) = records.drop (records.length - window) := by
  have hsp : records.filter (fun r => r.stageId = stageId) =
      (records.take (records.length - window)).filter (fun r => r.stageId = stageId) ++
        records.drop (records.length - window) := by
    conv_lhs => rw [← take_append_drop (records.length - window) records]
    rw [filter_append]
    congr 1
    exact filter_eq_self.mpr (fun r hr => by simpa using hown r hr)
  have hlen : (records.drop (records.length - window)).length = window := by
    rw [length_drop]
    omega
  intro own
  have how : own.length = ((records.take (records.length - window)).filter
        (fun r => r.stageId = stageId)).length + window := by
    show (records.filter _).length = _
    rw [hsp, length_append, hlen]
  refine ⟨by omega, ?_⟩
  show (records.filter _).drop _ = _
  rw [hsp]
  apply drop_left'
  omega

theorem degenerate_of_isDegenerate (hwi : 1 ≤ window)
    (h : isDegenerate records outcome stageId window = true) :
    Degenerate records outcome stageId window := by
  obtain ⟨hlo, hown, hall⟩ := (isDegenerate_iff hwi).mp h
  obtain ⟨hlen, hdr⟩ := own_drop_of_lastOwn hlo hown
  refine ⟨hlen, ?_⟩
  rwa [hdr]

/-- **What the convergence check finds.** It answers for the stage exactly when,
if the stage is in a degenerate loop, no other stage has decided meanwhile. -/
theorem isDegenerate_correct_iff (records : List DecisionRecord) (outcome : String) (stageId : Int)
    (window : Nat) (hwindow : 1 ≤ window) : (isDegenerate records outcome stageId window = true ↔
        Degenerate records outcome stageId window) ↔
      (Degenerate records outcome stageId window → LastOwn records stageId window) := by
  constructor
  · intro hco hdeg
    exact ((isDegenerate_iff hwindow).mp (hco.mpr hdeg)).2.1
  intro hown
  refine ⟨degenerate_of_isDegenerate hwindow, fun hdeg => ?_⟩
  have hlo : window ≤ records.length := hdeg.1.trans (length_filter_le _ _)
  obtain ⟨-, hdr⟩ := own_drop_of_lastOwn hlo (hown hdeg)
  have hall := hdeg.2
  rw [hdr] at hall
  exact (isDegenerate_iff hwindow).mpr ⟨hlo, hown hdeg, hall⟩

/-- One stage that refines five times over. -/
theorem isDegenerate_correct_single :
    isDegenerate (replicate 5 { stageId := 3, outcome := "refine" }) "refine" 3 = true ∧
    (isDegenerate (replicate 5 { stageId := 3, outcome := "refine" }) "refine" 3 5 = true ↔
      Degenerate (replicate 5 { stageId := 3, outcome := "refine" }) "refine" 3 5) := by
  refine ⟨by decide +kernel, ?_⟩
  apply (isDegenerate_correct_iff _ "refine" 3 5 (by decide)).mpr
  intro _ r hr
  rw [eq_of_mem_replicate (mem_of_mem_drop hr)]

/-- Two nested loops, each of which refines at every turn. -/
def nestedRefinements : List DecisionRecord :=
  (replicate 5 [
    { stageId := 3, outcome := "refine", nextStage := some 2 },
    { stageId := 4, outcome := "refine", nextStage := some 1 }]).flatten

theorem nestedRefinements_missed : Degenerate nestedRefinements "refine" 3 5 ∧
      isDegenerate nestedRefinements "refine" 3 5 = false := by decide +kernel

end DecisionHistory

/-! ## §2 A decision that is followed -/

/-- An empty answer counts as `proceed`. -/
def normalOutcome (decisionOutcome : String) : String :=
  if decisionOutcome = "" then "proceed" else decisionOutcome

def specOf (stage : StageNode) (outcome : String) : DecisionSpec :=
  (stage.decisionOutcomes.lookup outcome).getD {}

open DecisionHistory (count)

/-- What a decision that is neither exhausted nor converged comes to. -/
structure Resolved (records : List DecisionRecord) (stage : StageNode) (outcome : String)
    (out : DecisionResult × List DecisionRecord) : Prop where
  resolved : out.1.outcome = outcome
  next : out.1.nextStage = (specOf stage outcome).next
  recorded : ∃ next, out.2 =
    records ++ [{ stageId := stage.id, outcome := outcome, nextStage := next }]
  below : ∀ m, (specOf stage outcome).maxTimes = some m → (count records outcome stage.id : Int) < m

/-- Every decision is recorded; one that goes on was below its bound. -/
theorem resolveDecision_cases (records : List DecisionRecord) (stage : StageNode) (text : String) :
    (∃ record, (resolveDecision records stage text).2 = records ++ [record]) ∧
    (((resolveDecision records stage text).1.exhausted ||
      (resolveDecision records stage text).1.converged) = false →
      Resolved records stage (normalOutcome text) (resolveDecision records stage text)) := by
  have hsp : (stage.decisionOutcomes.lookup (normalOutcome text)).getD {} =
      specOf stage (normalOutcome text) := rfl
  unfold resolveDecision
  show _ ∧ (_ → Resolved records stage (normalOutcome text) _)
  dsimp only
  rw [show (if text = "" then "proceed" else text) = normalOutcome text from rfl]
  rw [hsp]
  split
  · exact ⟨⟨_, rfl⟩, by simp⟩
  rename_i hbe
  split
  · exact ⟨⟨_, rfl⟩, by simp⟩
  refine ⟨⟨_, rfl⟩, fun _ => ⟨rfl, rfl, ⟨_, rfl⟩, ?_⟩⟩
  intro m hm
  rw [hm, Option.filter_eq_none_iff] at hbe
  simpa using hbe m rfl

/-- What a decision that was followed says about the runner's answer. -/
structure FollowedAs (S : Setup σ) (stage : StageNode) (e : Engine σ) (r : StageResult)
    (e' : Engine σ) (runner : StageRunner σ) (d : DecisionRunResult) : Prop where
  injected : S.stageRunner = some runner
  answer : ∃ state env env', runner.runDecision stage state env = (.returned d, env')
  outcome : r.decisionOutcome = some (normalOutcome d.outcome)
  next : r.decisionNextStage = orInt (specOf stage (normalOutcome d.outcome)).next d.nextStage
  history : ∃ next, e'.decisionHistory = e.decisionHistory ++
    [{ stageId := stage.id, outcome := normalOutcome d.outcome, nextStage := next }]
  below : ∀ m, (specOf stage (normalOutcome d.outcome)).maxTimes = some m →
    (count e.decisionHistory (normalOutcome d.outcome) stage.id : Int) < m

variable {w : WorkflowSchema} {S : Setup σ} {dag : List Int} {idx idx' : Nat}
  {m : Option String} {e e' : Engine σ} {stage : StageNode} {r : StageResult}
  {log log' : List Event} {history history' : List DecisionRecord}

theorem executeStage_followed (hki : stage.kind = .decision)
    (h : executeStage S stage e = (.ok r, e')) :
    ∃ runner d, FollowedAs S stage e r e' runner d := by
  rw [executeStage, dispatchStage, hki] at h
  dsimp only [runDecisionStage] at h
  cases hru : S.stageRunner with
  | none =>
    rw [hru] at h
    cases h
  | some runner =>
    rw [hru] at h
    dsimp only [awaitRunner] at h
    split at h
    · rename_i d hd
      split at h
      · cases h
      rename_i hop
      have hres := (resolveDecision_cases _ stage d.outcome).2 (Bool.eq_false_iff.mpr hop)
      cases h
      refine ⟨runner, d, hru, ⟨_, _, _, Prod.ext hd rfl⟩, ?_, ?_, hres.recorded, hres.below⟩
      · exact congrArg some hres.resolved
      · exact congrArg (orInt · d.nextStage) hres.next
    · cases h
    · cases h

theorem Started.followed (h : Started S dag idx e stage (.ok r, e'))
    (hki : stage.kind = .decision) : ∃ runner d, FollowedAs S stage e r e' runner d := by
  obtain ⟨_, hran⟩ := h.ran
  obtain ⟨runner, d, hd⟩ := executeStage_followed hki hran
  exact ⟨runner, d, { hd with }⟩

theorem runDecisionStage_history (S : Setup σ) (stage : StageNode) (e : Engine σ) :
    ∃ added, (runDecisionStage S stage e).2.decisionHistory = e.decisionHistory ++ added := by
  unfold runDecisionStage
  rcases S.stageRunner with _ | _
  · exact ⟨[], (append_nil _).symm⟩
  dsimp only [awaitRunner]
  split
  · rename_i d _
    obtain ⟨record, hre⟩ := (resolveDecision_cases e.decisionHistory stage d.outcome).1
    refine ⟨[record], ?_⟩
    split
    all_goals exact hre
  all_goals exact ⟨[], (append_nil _).symm⟩

theorem executeStage_history (S : Setup σ) (stage : StageNode) (e : Engine σ) :
    ∃ added, (executeStage S stage e).2.decisionHistory = e.decisionHistory ++ added := by
  by_cases hki : stage.kind = .decision
  · rw [executeStage, dispatchStage, hki]
    exact runDecisionStage_history S stage _
  · exact ⟨[], by rw [(executeStage_run S stage e).history hki, append_nil]⟩

theorem Started.records {out : Except EngineError StageResult}
    (h : Started S dag idx e stage (out, e')) :
    ∃ added, e'.decisionHistory = e.decisionHistory ++ added := by
  obtain ⟨env, hran⟩ := h.ran
  have hhi := executeStage_history S stage { e with env := env }
  rwa [hran] at hhi

/-! ## §3 How often an outcome is followed -/

def Event.isDecision : Event → Bool
  | .decisionEvaluated .. => true
  | _ => false

def Event.isComplete : Event → Bool
  | .stageComplete .. => true
  | _ => false

/-- The outcome is announced and the stage booked at once. An exhausted outcome
is announced as well, but then the run ends. -/
def followed (stageId : Int) (outcome : String) : Event → Event → Bool
  | .decisionEvaluated i o _, .stageComplete j _ _ => i = stageId && o = outcome && j = stageId
  | _, _ => false

/-- How often the log has the outcome followed. -/
def follows (stageId : Int) (outcome : String) : List Event → Nat
  | a :: b :: rest =>
    (if followed stageId outcome a b then 1 else 0) + follows stageId outcome (b :: rest)
  | _ => 0

variable {out : Except EngineError StageResult} {o : String} {a : Event} {chunk : List Event}

section

variable {i : Int} {b : Event}

theorem followed_of_not_isDecision (h : a.isDecision = false) : followed i o a b = false := by
  cases a <;> first | rfl | cases h

theorem followed_of_not_isComplete (h : b.isComplete = false) : followed i o a b = false := by
  unfold followed
  split
  · cases h
  · rfl

theorem follows_append (hhe : ∀ b ∈ chunk.head?, b.isComplete = false) :
    follows i o (log ++ chunk) = follows i o log + follows i o chunk := by
  induction log with
  | nil => simp [follows]
  | cons a rest ih =>
    cases rest with
    | nil =>
      cases chunk with
      | nil => simp [follows]
      | cons b =>
        have hb := followed_of_not_isComplete (i := i) (o := o) (a := a) (hhe b rfl)
        simp [follows, hb]
    | cons =>
      rw [cons_append] at ih
      simp only [cons_append, follows]
      omega

theorem follows_of_noDecision (h : ∀ a ∈ log, a.isDecision = false) : follows i o log = 0 := by
  induction log with
  | nil => rfl
  | cons a rest ih =>
    have hre := ih (fun b hb => h b (mem_cons_of_mem _ hb))
    cases rest with
    | nil => rfl
    | cons =>
      rw [follows, hre, followed_of_not_isDecision (h a mem_cons_self)]
      rfl

theorem follows_of_noComplete (h : ∀ a ∈ log, a.isComplete = false) : follows i o log = 0 := by
  induction log with
  | nil => rfl
  | cons _ rest ih =>
    have hre := ih (fun b hb => h b (mem_cons_of_mem _ hb))
    cases rest with
    | nil => rfl
    | cons b =>
      rw [follows, hre, followed_of_not_isComplete (h b (mem_cons_of_mem _ mem_cons_self))]
      rfl

variable {inner : List Event}

theorem StageEvents.noComplete
    (h : StageEvents stage out inner) : ∀ a ∈ inner, a.isComplete = false := by
  intro a ha
  rcases h.mem ha with ⟨text, rfl⟩ | rfl | rfl | ⟨reason, rfl⟩ | ⟨outcome, next, rfl⟩ <;> rfl

theorem StageEvents.noDecision (h : StageEvents stage out inner) (hki : stage.kind ≠ .decision) :
    ∀ a ∈ inner, a.isDecision = false := by
  intro a ha
  cases h with
  | worked | broke =>
    obtain ⟨_, -, rfl⟩ := mem_map.mp ha
    rfl
  | unanswered =>
    rw [mem_singleton.mp ha]
    rfl
  | approved | rejected =>
    simp only [mem_cons, not_mem_nil, or_false] at ha
    rcases ha with rfl | rfl <;> rfl
  | decided | exhausted => exact absurd ‹_› hki

/-- Booking a stage adds a followed outcome if the stage is a decision. -/
theorem Started.follows_complete (h : Started S dag idx e stage (.ok r, e')) :
    follows i o (completeStage S stage r e').eventLog = follows i o e.eventLog +
      if stage.kind = .decision ∧ stage.id = i ∧ r.decisionOutcome = some o then 1 else 0 := by
  obtain ⟨_, hlog, hev⟩ := h.run.log
  rw [completeStage_eventLog, hlog, append_assoc, follows_append (by rintro b ⟨⟩; rfl)]
  congr 1
  by_cases hki : stage.kind = .decision
  · cases hev with
    | worked _ _ hot => simp [hki] at hot
    | approved _ hga => simp [hki] at hga
    | rejected _ _ hga => simp [hki] at hga
    | decided _ outcome _ _ hou =>
      simp only [cons_append, nil_append, follows, Workflow.followed, hki, hou]
      by_cases hi : stage.id = i <;> by_cases ho : outcome = o <;> simp [ho]
  · rw [if_neg (fun hc => hki hc.1)]
    apply follows_of_noDecision
    intro a ha
    rw [cons_append, mem_cons, mem_append, mem_singleton] at ha
    rcases ha with rfl | ha | rfl
    · rfl
    · exact hev.noDecision hki a ha
    · rfl

end

/-- Every followed outcome has a record, and no bound is exceeded. -/
structure Tallied (w : WorkflowSchema) (log : List Event) (history : List DecisionRecord) :
    Prop where
  recorded : ∀ i o, follows i o log ≤ count history o i
  bounded : ∀ stage ∈ w.stages, ∀ o m, (specOf stage o).maxTimes = some m →
    follows stage.id o log ≤ m.toNat

theorem counts_append (records added : List DecisionRecord) (o : String) (i : Int) :
    count (records ++ added) o i = count records o i + count added o i :=
  countP_append

/-- What a stretch of work adds to log and history: no record goes, and an outcome that was followed
has a new record and was below its bound. -/
structure Tallies (w : WorkflowSchema) (log : List Event) (history : List DecisionRecord)
    (log' : List Event) (history' : List DecisionRecord) : Prop where
  recorded : ∀ i o, count history o i ≤ count history' o i
  followed : ∀ i o, follows i o log' = follows i o log ∨
    (follows i o log' = follows i o log + 1 ∧ count history o i + 1 ≤ count history' o i ∧
      ∀ stage ∈ w.stages, stage.id = i → ∀ m, (specOf stage o).maxTimes = some m →
        (count history o i : Int) < m)

theorem Tallies.refl (w : WorkflowSchema) (log : List Event) (history : List DecisionRecord) :
    Tallies w log history log history :=
  ⟨fun _ _ => le_refl _, fun _ _ => .inl rfl⟩

/-- More events, none of them a completion, and more records. -/
theorem Tallies.extend (h : Tallies w log history log' history')
    (added : List DecisionRecord) (hch : ∀ a ∈ chunk, a.isComplete = false) :
    Tallies w log history (log' ++ chunk) (history' ++ added) := by
  have hco : ∀ i o, count history' o i ≤ count (history' ++ added) o i := by
    intro i o
    rw [counts_append]
    exact Nat.le_add_right _ _
  refine ⟨fun i o => (h.recorded i o).trans (hco i o), fun i o => ?_⟩
  rw [follows_append (fun b hb => hch b (mem_of_mem_head? hb)), follows_of_noComplete hch]
  rcases h.followed i o with hsa | ⟨hfo, hnew, hbe⟩
  · exact .inl hsa
  · exact .inr ⟨hfo, hnew.trans (hco i o), hbe⟩

/-- More events, none of them a completion. -/
theorem Tallies.append (h : Tallies w log history log' history')
    (hch : ∀ a ∈ chunk, a.isComplete = false) :
    Tallies w log history (log' ++ chunk) history' := by
  have hext := h.extend [] hch
  rwa [append_nil] at hext

/-- One more event that completes nothing. -/
theorem Tallies.concat (h : Tallies w log history log' history')
    (ha : a.isComplete = false) : Tallies w log history (log' ++ [a]) history' :=
  h.append (by simpa using ha)

theorem Tallied.next (h : Tallied w log history) (hne : Tallies w log history log' history') :
    Tallied w log' history' := by
  constructor
  · intro i o
    have hrec := h.recorded i o
    have hgr := hne.recorded i o
    rcases hne.followed i o with hsa | ⟨hfo, hnew, -⟩
    · omega
    · omega
  · intro stage hst o m hm
    have hbo := h.bounded stage hst o m hm
    rcases hne.followed stage.id o with hsa | ⟨hfo, -, hbe⟩
    · omega
    -- the bound was still open, and the records count at least the follows
    have hle := hbe stage hst rfl m hm
    have hrec := h.recorded stage.id o
    omega

theorem Started.tallies_complete (h : Started S dag idx e stage (.ok r, e')) :
    Tallies S.workflow e.eventLog e.decisionHistory (completeStage S stage r e').eventLog
      e'.decisionHistory := by
  have hfo : ∀ i o, _ := fun i o => h.follows_complete (i := i) (o := o)
  by_cases hki : stage.kind = .decision
  · obtain ⟨_, d, hd⟩ := h.followed hki
    obtain ⟨next, hhi⟩ := hd.history
    have hbe := hd.below
    have hou := hd.outcome
    generalize normalOutcome d.outcome = outcome at hhi hbe hou
    rw [hhi]
    refine ⟨fun i o => by rw [counts_append]; exact Nat.le_add_right _ _, fun i o => ?_⟩
    rw [hfo i o, hou, counts_append]
    by_cases hio : stage.id = i ∧ outcome = o
    · obtain ⟨rfl, rfl⟩ := hio
      have hone : count [{ stageId := stage.id, outcome, nextStage := next }] outcome
          stage.id = 1 := by simp [count]
      rw [if_pos ⟨hki, rfl, rfl⟩, hone]
      refine .inr ⟨rfl, le_refl _, ?_⟩
      intro _ hst' hid m hm
      have hfn := S.workflow.getStage_of_mem hst'
      rw [hid, h.found] at hfn
      cases hfn
      exact hbe m hm
    · rw [if_neg (by rintro ⟨-, rfl, ho⟩; exact hio ⟨rfl, by simpa using ho⟩)]
      exact .inl rfl
  · rw [h.run.history hki]
    refine ⟨fun _ _ => le_refl _, fun i o => .inl ?_⟩
    rw [hfo i o, if_neg (fun hc => hki hc.1), add_zero]

theorem Started.tallies_events (h : Started S dag idx e stage (out, e')) :
    Tallies S.workflow e.eventLog e.decisionHistory e'.eventLog e'.decisionHistory := by
  obtain ⟨_, hlog, hev⟩ := h.run.log
  obtain ⟨added, hhi⟩ := h.records
  rw [hlog, hhi]
  apply (Tallies.refl _ _ _).extend added
  intro a ha
  rcases mem_cons.mp ha with rfl | ha
  · rfl
  · exact hev.noComplete a ha

/-- What a pass adds. -/
theorem loopStep_tallies (S : Setup σ) (dag : List Int) (idx : Nat) (m : Option String)
    (e : Engine σ) : Tallies S.workflow e.eventLog e.decisionHistory
      (loopStep S dag idx m e).engine.eventLog
      (loopStep S dag idx m e).engine.decisionHistory := by
  rcases loopStep_frame S dag idx m e with
    ⟨-, hqu⟩ | ⟨stage, ⟨out, e'⟩, -, hst, hse⟩
  · obtain ⟨_, hlog⟩ := hqu.log
    rw [hlog, hqu.decisionHistory]
    exact (Tallies.refl _ _ _).append (by simp [isComplete])
  · obtain ⟨_, hlog, hta⟩ := hse.log
    rw [hlog, hse.history]
    cases hta with
    | booked =>
      have hbo := hst.tallies_complete
      rw [completeStage_eventLog] at hbo
      rw [append_cons]
      exact hbo.append (by simp [isComplete])
    | failed | aborted | raised => exact hst.tallies_events.append (by simp [isComplete])

/-! ## §4 Bounded loops end -/

/-- No stage sends the loop back by a failure or a rejection. -/
def Rollbackless (w : WorkflowSchema) : Prop :=
  ∀ s ∈ w.stages, s.onError ≠ .rollback ∧ s.gateRollbackTo = none

/-- Every outcome that leads to the decision itself or to a stage before it has
a bound. -/
def BackwardBounded (w : WorkflowSchema) : Prop :=
  ∀ dagOrder, w.buildDagOrder = .ok dagOrder →
    ∀ s ∈ w.stages, s.kind = .decision → ∀ o spec, s.decisionOutcomes.lookup o = some spec →
      ∀ target, spec.next = some target → ∀ i j : Nat, dagOrder[i]? = some s.id →
        dagOrder[j]? = some target → j ≤ i → spec.maxTimes.isSome

/-- The runner suggests no next stage, or the declared one. -/
def SuggestsDeclared (S : Setup σ) : Prop :=
  ∀ runner, S.stageRunner = some runner → ∀ s ∈ S.workflow.stages, ∀ state env d env',
    runner.runDecision s state env = (.returned d, env') →
      d.nextStage = none ∨ d.nextStage = (specOf s (normalOutcome d.outcome)).next

/-- The outcomes with a bound, by stage. -/
def bounds (w : WorkflowSchema) : List (Int × String × Int) :=
  w.stages.flatMap fun s => s.decisionOutcomes.filterMap fun p =>
    p.2.maxTimes.map fun m => (s.id, p.1, m)

/-- How often bounded outcomes can still be followed, all together. -/
def budget (w : WorkflowSchema) (history : List DecisionRecord) : Nat :=
  ((bounds w).map fun b => (b.2.2 - (count history b.2.1 b.1 : Int)).toNat).sum

theorem budget_append_le (w : WorkflowSchema) (history added : List DecisionRecord) :
    budget w (history ++ added) ≤ budget w history := by
  apply sum_le_sum
  intro b _
  rw [counts_append]
  omega

theorem budget_record_lt {spec : DecisionSpec} {m : Int} {next : Option Int}
    (hst : stage ∈ w.stages) (hsc : stage.decisionOutcomes.lookup o = some spec)
    (hm : spec.maxTimes = some m) (hbe : (count history o stage.id : Int) < m) :
    budget w (history ++ [{ stageId := stage.id, outcome := o, nextStage := next }]) <
      budget w history := by
  apply sum_lt_sum
  · intro b _
    rw [counts_append]
    omega
  refine ⟨(stage.id, o, m), ?_, ?_⟩
  · obtain ⟨_, _, hsp, -⟩ := lookup_eq_some_iff.mp hsc
    refine mem_flatMap.mpr ⟨stage, hst, mem_filterMap.mpr ⟨(o, spec), ?_, ?_⟩⟩
    · rw [hsp]
      exact mem_append_right _ mem_cons_self
    · rw [hm]
      rfl
  · have hone : count [{ stageId := stage.id, outcome := o, nextStage := next }] o
        stage.id = 1 := by simp [count]
    dsimp only
    rw [counts_append]
    omega

/-- What is left to do: first the budget, then the rest of the order. -/
def workLeft (w : WorkflowSchema) (dagOrder : List Int) (idx : Nat) (e : Engine σ) : Nat :=
  budget w e.decisionHistory * (dagOrder.length + 1) + (dagOrder.length - idx)

theorem workLeft_forward (hidx : idx < idx') (hlen : idx < dag.length)
    (hhi : ∃ added, e'.decisionHistory = e.decisionHistory ++ added) :
    workLeft w dag idx' e' < workLeft w dag idx e := by
  obtain ⟨added, had⟩ := hhi
  have hle := Nat.mul_le_mul_right (dag.length + 1) (budget_append_le w e.decisionHistory added)
  unfold workLeft
  rw [had]
  omega

theorem workLeft_spent (hsp : budget w e'.decisionHistory < budget w e.decisionHistory) :
    workLeft w dag idx' e' < workLeft w dag idx e := by
  have hle := Nat.mul_le_mul_right (dag.length + 1) (Nat.succ_le_of_lt hsp)
  rw [Nat.succ_mul] at hle
  unfold workLeft
  omega

/-- A runner that keeps to the declared stages adds nothing to them. -/
theorem orInt_declared {next suggested : Option Int} {target : Int}
    (hde : suggested = none ∨ suggested = next) (h : orInt next suggested = some target) :
    next = some target := by
  unfold orInt at h
  split at h
  · split at h
    · rcases hde with rfl | rfl
      · cases h
      · exact h
    · exact h
  · rcases hde with rfl | rfl <;> cases h

/-- Where a decision goes: forward, or back at the price of its budget. -/
theorem Started.decision_progress (hdag : S.workflow.buildDagOrder = .ok dag)
    (hbo : BackwardBounded S.workflow) (hde : SuggestsDeclared S)
    (h : Started S dag idx e stage (.ok r, e')) (hki : stage.kind = .decision) :
    idx < (r.decisionNextStage.bind dag.idxOf?).getD (idx + 1) ∨
      budget S.workflow e'.decisionHistory < budget S.workflow e.decisionHistory := by
  have hst := (S.workflow.getStage_some h.found).1
  obtain ⟨runner, d, hd⟩ := h.followed hki
  obtain ⟨state, env, env', han⟩ := hd.answer
  have hsu := hde runner hd.injected stage hst state env d env' han
  rcases hin : r.decisionNextStage.bind dag.idxOf? with _ | j
  · exact .inl (Nat.lt_succ_self idx)
  obtain ⟨target, hta, hj⟩ := Option.bind_eq_some_iff.mp hin
  rw [hd.next] at hta
  have hne := orInt_declared hsu hta
  rcases lt_or_ge idx j with hfo | hba
  · exact .inl hfo
  right
  have hj' : dag[j]? = some target := by
    obtain ⟨hlt, hget, -⟩ := idxOf?_eq_some_iff.mp hj
    rw [getElem?_eq_getElem hlt, hget]
  -- a declared target means that the outcome is listed
  obtain ⟨spec, hsc⟩ : ∃ spec,
      stage.decisionOutcomes.lookup (normalOutcome d.outcome) = some spec := by
    cases hlo : stage.decisionOutcomes.lookup (normalOutcome d.outcome) with
    | none => simp [specOf, hlo] at hne
    | some spec => exact ⟨spec, rfl⟩
  have hsp : specOf stage (normalOutcome d.outcome) = spec := by
    simp [specOf, hsc]
  rw [hsp] at hne
  obtain ⟨m, hm⟩ := Option.isSome_iff_exists.mp
    (hbo dag hdag stage hst hki _ spec hsc target hne idx j h.at_index hj' hba)
  obtain ⟨_, hhi⟩ := hd.history
  rw [hhi]
  exact budget_record_lt hst hsc hm (hd.below m (by rw [hsp]; exact hm))

theorem Pass.workLeft_lt {m' : Option String} (hdag : S.workflow.buildDagOrder = .ok dag)
    (hro : Rollbackless S.workflow) (hbo : BackwardBounded S.workflow)
    (hde : SuggestsDeclared S) (h : Pass S dag idx m e (.next idx' m' e')) :
    workLeft S.workflow dag idx' e' < workLeft S.workflow dag idx e := by
  have hlen := h.lt_length
  cases h with
  | absent | skipped => exact workLeft_forward (Nat.lt_succ_self idx) hlen ⟨[], (append_nil _).symm⟩
  | completed stage r e₁ h =>
    have hco : ∃ added, (completeStage S stage r e₁).decisionHistory =
        e.decisionHistory ++ added := by
      rw [completeStage_decisionHistory]
      exact h.records
    by_cases hki : stage.kind = .decision
    · rw [nextIndex, if_pos hki]
      rcases h.decision_progress hdag hbo hde hki with hfo | hsp
      · exact workLeft_forward hfo hlen hco
      · apply workLeft_spent
        rwa [completeStage_decisionHistory]
    · rw [nextIndex, if_neg hki]
      exact workLeft_forward (Nat.lt_succ_self idx) hlen hco
  | accepted stage r e₁ h =>
    apply workLeft_forward (Nat.lt_succ_self idx) hlen
    show ∃ added, (completeStage S stage r e₁).decisionHistory = _
    rw [completeStage_decisionHistory]
    exact h.records
  | passedOver _ _ _ h => exact workLeft_forward (Nat.lt_succ_self idx) hlen h.records
  | turnedBack stage _ _ h hba =>
    obtain ⟨her, hta⟩ := hro stage (S.workflow.getStage_some h.found).1
    rcases hba.2.2 with hba | hba
    · exact absurd hba her
    · rw [hta] at hba
      cases hba
  | rolledBack stage _ _ h hba =>
    exact absurd hba (hro stage (S.workflow.getStage_some h.found).1).1

/-! ## §5 Whole runs -/

/-- Nothing was decided on the way from `e₀` to `e`. -/
def Undecided (e₀ e : Engine σ) : Prop :=
  e.decisionHistory = e₀.decisionHistory ∧
    ∃ chunk, e.eventLog = e₀.eventLog ++ chunk ∧ ∀ a ∈ chunk, a.isDecision = false

variable {p : Parallel σ} {pending : List StageNode}

namespace Undecided

variable {e₀ : Engine σ}

theorem refl (e : Engine σ) : Undecided e e := ⟨rfl, [], by simp⟩

theorem extend (h : Undecided e₀ e)
    (hhi : e'.decisionHistory = e.decisionHistory) (more : List Event)
    (hlog : e'.eventLog = e.eventLog ++ more) (hmo : ∀ a ∈ more, a.isDecision = false) :
    Undecided e₀ e' := by
  obtain ⟨hsa, chunk, hch, hqu⟩ := h
  refine ⟨hhi.trans hsa, chunk ++ more, ?_, ?_⟩
  · rw [hlog, hch, append_assoc]
  intro a ha
  rcases mem_append.mp ha with ha | ha
  · exact hqu a ha
  · exact hmo a ha

variable {batch : List StageNode} (S : Setup σ)

theorem runBatch (h : Undecided e₀ e)
    (hki : ∀ s ∈ batch, s.kind = .action) : Undecided e₀ (runBatch S batch e).2 := by
  induction batch generalizing e with
  | nil => exact h
  | cons stage _ ih =>
    have hkn : stage.kind ≠ .decision := by
      rw [hki stage mem_cons_self]
      decide
    have hrun := executeStage_run S stage e
    obtain ⟨_, hlog, hev⟩ := hrun.log
    refine ih (h.extend (hrun.history hkn) _ hlog ?_) (fun s hs => hki s (mem_cons_of_mem _ hs))
    intro a ha
    rcases mem_cons.mp ha with rfl | ha
    · rfl
    · exact hev.noDecision hkn a ha

theorem completeStage (stage : StageNode) (r : StageResult) (h : Undecided e₀ e) :
    Undecided e₀ (completeStage S stage r e) :=
  h.extend (completeStage_decisionHistory S stage r e) _ (completeStage_eventLog S stage r e)
    (by simp [isDecision])

theorem failStage (stage : StageNode) (message : String) (h : Undecided e₀ e) :
    Undecided e₀ (failStage stage message e) :=
  h.extend rfl [.stageFailed stage.id stage.name message] rfl (by simp [isDecision])

theorem settleOutcome (outcome : StageNode × Except EngineError StageResult)
    (h : Undecided e₀ p.engine) : Undecided e₀ (settleOutcome S p outcome).engine := by
  obtain ⟨e, hen, hse⟩ := settleOutcome_engine S p outcome
  obtain ⟨_, hlog⟩ := hen.log
  have hch : Undecided e₀ e := h.extend hen.decisionHistory _ hlog (by simp [isDecision])
  rcases hse with ⟨text, heq⟩ | ⟨r, heq⟩
  · rw [heq]
    exact hch.failStage _ _
  · rw [heq]
    exact hch.completeStage S _ _

theorem foldl_settleOutcome (outs : List (StageNode × Except EngineError StageResult))
    (h : Undecided e₀ p.engine) :
    Undecided e₀ (outs.foldl (Workflow.settleOutcome S) p).engine := by
  induction outs generalizing p with
  | nil => exact h
  | cons out _ ih => exact ih (h.settleOutcome S out)

theorem batchPass (h : Undecided e₀ p.engine)
    (hki : ∀ s ∈ batch, s.kind = .action) : Undecided e₀ (batchPass S batch p).engine :=
  foldl_settleOutcome S _ (h.runBatch S hki)

theorem skipAll (h : Undecided e₀ e) : Undecided e₀ (skipAll pending e) := by
  induction pending generalizing e with
  | nil => exact h
  | cons stage _ ih =>
    exact ih (h.extend rfl [.stageSkipped stage.id stage.name "dependencies not satisfied"]
      rfl (by simp [isDecision]))

end Undecided

theorem closeRun_decisions (m : Option String) (e : Engine σ) :
    (closeRun m e).decisionHistory = e.decisionHistory ∧
      ∃ a : Event, (closeRun m e).eventLog = e.eventLog ++ [a] ∧ a.isDecision = false ∧
        a.isComplete = false := by
  unfold closeRun
  split
  · split
    all_goals exact ⟨rfl, _, rfl, rfl, rfl⟩
  · exact ⟨rfl, _, rfl, rfl, rfl⟩

theorem mem_foldl_assumeCompleted (ids : List Int) (s : WorkflowState) (i : Int) :
    i ∈ (ids.foldl assumeCompleted s).completedStages ↔ i ∈ s.completedStages ∨ i ∈ ids := by
  induction ids generalizing s with
  | nil => simp
  | cons _ _ ih =>
    rw [foldl_cons, ih]
    unfold assumeCompleted
    split
    · grind
    · simp [or_assoc]

variable {fromStage : Option Int}

theorem pending_action (hdag : S.workflow.buildDagOrder = .ok dag)
    (hpar : schedulesParallel S dag (startIndex dag fromStage)
      (prepareRun S dag fromStage e).state = true) : ∀ s ∈ S.workflow.stages.filter
      (fun s => s.id ∉ (prepareRun S dag fromStage e).state.completedStages),
      s.kind = .action := by
  intro s hs
  obtain ⟨hmem, hop⟩ := mem_filter.mp hs
  have hop' := of_decide_eq_true hop
  have hor : s.id ∈ dag :=
    (Topological.of_buildDagOrder hdag).perm.mem_iff.mpr (mem_map_of_mem hmem)
  rw [← take_append_drop (startIndex dag fromStage) dag] at hor
  have hdr : s.id ∈ dag.drop (startIndex dag fromStage) := by
    rcases mem_append.mp hor with hta | hdr
    · exact absurd ((mem_foldl_assumeCompleted _ _ _).mpr (.inr hta)) hop'
    · exact hdr
  exact schedulesParallel_action hpar hmem hdr hop'

variable {fuel : Nat}

/-- The batch scheduler decides nothing. -/
theorem parallelLoop_undecided (hki : ∀ s ∈ pending, s.kind = .action)
    (h : parallelLoop S fuel { pending, engine := e } = some p) : Undecided e p.engine := by
  have hend := parallelLoop_invariant
    (fun pending e' => (∀ s ∈ pending, s.kind = .action) ∧ Undecided e e')
    (fun _ _ _ h => h)
    (fun batch p hsub h => ⟨fun s hs => h.1 s (by
        rw [batchPass_pending] at hs
        exact (mem_filter.mp hs).1),
      h.2.batchPass S (fun s hs => h.1 s (hsub.subset hs))⟩)
    (fun _ _ h => ⟨by simp, h.2.skipAll⟩)
    (fun _ _ h => ⟨by simp, h.2⟩)
    ⟨hki, .refl e⟩ h
  exact hend.2

theorem execute_ends (hro : Rollbackless S.workflow) (hbo : BackwardBounded S.workflow)
    (hde : SuggestsDeclared S) (fromStage : Option Int) (e : Engine σ) :
    ∃ fuel out, execute S fuel fromStage e = some out := by
  unfold execute
  rcases hdag : S.workflow.buildDagOrder with _ | dag
  · exact ⟨0, _, rfl⟩
  dsimp only
  split
  · obtain ⟨p, hp⟩ := parallelLoop_ends (Nat.lt_succ_self _)
    exact ⟨_, _, by rw [executeParallelActions, hp]; rfl⟩
  obtain ⟨_, hout⟩ := runLoop_ends (workLeft S.workflow dag)
    (fun _ _ _ _ _ _ h => h.workLeft_lt hdag hro hbo hde)
    (Nat.lt_succ_self (workLeft S.workflow dag (startIndex dag fromStage)
      (prepareRun S dag fromStage e)))
  exact ⟨_, _, by rw [executeSequential, hout]; rfl⟩

theorem loopFor_tallied (n : Nat) (ht : Tallied S.workflow e.eventLog e.decisionHistory) :
    Tallied S.workflow (loopFor S dag n idx m e).eventLog
      (loopFor S dag n idx m e).decisionHistory := by
  induction n generalizing idx m e with
  | zero => exact ht
  | succ _ ih =>
    have hpa := ht.next (loopStep_tallies S dag idx m e)
    rw [loopFor]
    split
    · rename_i hst
      rw [hst] at hpa
      exact ih hpa
    all_goals
      rename_i hst
      rwa [hst] at hpa

/-- **What one call of `execute` keeps.** -/
theorem execute_tallied
    {out : Except EngineError WorkflowResult} (ht : Tallied S.workflow e.eventLog e.decisionHistory)
    (h : execute S fuel fromStage e = some (out, e')) :
    Tallied S.workflow e'.eventLog e'.decisionHistory := by
  unfold execute at h
  cases hdag : S.workflow.buildDagOrder with
  | error =>
    rw [hdag] at h
    cases h
    exact ht
  | ok dag =>
    rw [hdag] at h
    dsimp only at h
    have hpr : Tallied S.workflow (prepareRun S dag fromStage e).eventLog
        (prepareRun S dag fromStage e).decisionHistory :=
      ht.next ((Tallies.refl _ _ _).concat rfl)
    split at h
    · rename_i hpar
      obtain ⟨p, hp, hout⟩ := Option.map_eq_some_iff.mp h
      cases hout
      obtain ⟨hhi, chunk, hlog, hqu⟩ := parallelLoop_undecided (pending_action hdag hpar) hp
      obtain ⟨hcs, a, hcl, ha, -⟩ := closeRun_decisions p.errorMsg p.engine
      -- from the announcement of the run on, nothing is decided
      have hre : (closeRun p.errorMsg p.engine).eventLog = e.eventLog ++
          (.workflowStart S.workflow.name S.workflow.stages.length :: (chunk ++ [a])) := by
        rw [hcl, hlog]
        simp [prepareRun, Engine.emit]
      have hno : ∀ i o, follows i o
          (.workflowStart S.workflow.name S.workflow.stages.length :: (chunk ++ [a])) = 0 := by
        intro i o
        apply follows_of_noDecision
        intro b hb
        simp only [mem_cons, mem_append, not_mem_nil, or_false] at hb
        rcases hb with rfl | hb | rfl
        · rfl
        · exact hqu b hb
        · exact ha
      rw [hcs, hhi]
      refine ht.next ⟨fun _ _ => le_refl _, fun i o => .inl ?_⟩
      rw [hre, follows_append (by rintro b ⟨⟩; rfl), hno, add_zero]
    · obtain ⟨⟨res, e₁⟩, hlo, hout⟩ := Option.map_eq_some_iff.mp h
      have hend : Tallied S.workflow (loopFor S dag fuel (startIndex dag fromStage) none
            (prepareRun S dag fromStage e)).eventLog
          (loopFor S dag fuel (startIndex dag fromStage) none
            (prepareRun S dag fromStage e)).decisionHistory := loopFor_tallied fuel hpr
      rw [loopFor_of_runLoop hlo] at hend
      cases res with
      | error =>
        cases hout
        exact hend
      | ok errorMsg =>
        cases hout
        obtain ⟨hhi, a, hlog, -, ha⟩ := closeRun_decisions errorMsg e₁
        rw [hhi, hlog]
        exact hend.next ((Tallies.refl _ _ _).concat ha)

/-- One call of `execute` takes the engine from `e` to `e'`. -/
def Executes (S : Setup σ) (e e' : Engine σ) : Prop :=
  ∃ fuel fromStage out, execute S fuel fromStage e = some (out, e')

/-- **Bounded decision loops end.** Without rollback settings, with a bound on
every outcome that leads back and a runner that keeps to the declared stages,
`execute` comes to an end. In the life of an engine an outcome with a bound is
followed at most that many times. -/
theorem bounded_decisions_end (S : Setup σ) (hrollback : Rollbackless S.workflow)
    (hbounded : BackwardBounded S.workflow) (hdeclared : SuggestsDeclared S) :
    (∀ fromStage e, ∃ fuel out, execute S fuel fromStage e = some out) ∧
    ∀ e₀ e, e₀.eventLog = [] → Relation.ReflTransGen (Executes S) e₀ e →
      ∀ stage ∈ S.workflow.stages, ∀ o spec m, stage.decisionOutcomes.lookup o = some spec →
        spec.maxTimes = some m → follows stage.id o e.eventLog ≤ m.toNat := by
  refine ⟨execute_ends hrollback hbounded hdeclared, ?_⟩
  intro _ e hnew hli stage hst o _ m hsp hm
  have hta : Tallied S.workflow e.eventLog e.decisionHistory := by
    induction hli with
    | refl =>
      rw [hnew]
      exact ⟨fun _ _ => Nat.zero_le _, fun _ _ _ _ _ => Nat.zero_le _⟩
    | tail _ hste ih =>
      obtain ⟨_, _, _, hrun⟩ := hste
      exact execute_tallied ih hrun
  exact hta.bounded stage hst o m (by simpa [specOf, hsp] using hm)

/-- A draft that is refined at most twice. -/
def refineWorkflow : WorkflowSchema where
  name := "refine"
  stages := [
    { id := 1, name := "Draft", kind := .agent },
    { id := 2, name := "Good enough?", kind := .decision, dependsOn := [1]
      decisionOutcomes := [("refine", { next := some 1, maxTimes := some 2 })] }]
  distinct := by decide

/-- The reviewer who is never content. -/
def refineSetup : Setup Unit where
  workflow := refineWorkflow
  stageRunner := some {
    run := fun _ _ env => (.returned { success := true }, env)
    runAction := fun _ _ env => (.returned { success := true }, env)
    runGate := fun _ _ env => (.returned { approved := true }, env)
    runDecision := fun _ _ env => (.returned { outcome := "refine" }, env) }
  validateAll := fun _ env => ([], env)
  restoreSnapshot := fun _ env => (true, env)

theorem bounded_decisions_end_refine :
    (∃ fuel out, execute refineSetup fuel none (Engine.fresh refineSetup none ()) = some out) ∧
    ∀ e, Relation.ReflTransGen (Executes refineSetup) (Engine.fresh refineSetup none ()) e →
      follows 2 "refine" e.eventLog ≤ 2 := by
  have hro : Rollbackless refineSetup.workflow := by
    show ∀ s ∈ refineWorkflow.stages, _
    decide
  have hbo : BackwardBounded refineSetup.workflow := by
    intro _ _ s hs hki o _ hsp
    change s ∈ refineWorkflow.stages at hs
    simp only [refineWorkflow, mem_cons, not_mem_nil, or_false] at hs
    rcases hs with rfl | rfl
    · cases hki
    intro _ _ i j _ _ _
    rw [lookup_cons] at hsp
    split at hsp
    · cases hsp
      rfl
    · cases hsp
  have hde : SuggestsDeclared refineSetup := by
    rintro _ ⟨⟩ s _ _ _ d _ ⟨⟩
    exact .inl rfl
  obtain ⟨hen, hfo⟩ := bounded_decisions_end refineSetup hro hbo hde
  refine ⟨hen none _, fun e hli => ?_⟩
  exact hfo _ e rfl hli _ (mem_cons_of_mem _ mem_cons_self) "refine" _ 2 rfl rfl

end Orchestratord.Workflow
