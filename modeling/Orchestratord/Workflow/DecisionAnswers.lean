import Orchestratord.Foundation.Text
import Orchestratord.Workflow.Engine

/-!
# Reading a decision off an agent's answer

`StageRunner.run_decision` asks an agent for one word, the chosen outcome, and
scans the declared names for one that occurs in the answer. The scan stops at
the first name in declaration order, so a name that is part of a later one hides
it. The host language's `lower` maps all of Unicode; it is a parameter here, and
nothing is assumed of it.
-/

namespace Orchestratord.Workflow

open Foundation

section Answers

variable (lower : String → String)

/-- The keys of `decision_outcomes`, in declaration order. -/
def StageNode.outcomeNames (stageNode : StageNode) : List String :=
  stageNode.decisionOutcomes.map Prod.fst

/-- The name `outcome` occurs in an answer, letters of either case. -/
def occursIn (outputText outcome : String) : Bool :=
  Text.contains (lower (Text.strip outputText)) (lower outcome)

/-- `_parse_decision_outcome`. -/
def parseDecisionOutcome (outputText : String) (stageNode : StageNode) : String :=
  (stageNode.outcomeNames.find? (occursIn lower outputText)).getD "proceed"

/-- `_resolve_next_stage`. -/
def resolveNextStage (outcome : String) (stageNode : StageNode) : Option Int :=
  ((stageNode.decisionOutcomes.lookup outcome).getD {}).next

/-- The attempts of `run_decision` from number `attempt` on, `remaining` of them.
`answers` is what the agent's task comes to: an exception, or the output text of
the session (a missing session reads as an empty text). -/
def decisionAttempts (answers : Nat → Except String (Option String)) (maxRetries : Int)
    (stageNode : StageNode) : (remaining attempt : Nat) → DecisionRunResult
  | 0, _ => { outcome := "proceed" }
  | remaining + 1, attempt =>
    match answers attempt with
    | .ok session =>
      let outcome := parseDecisionOutcome lower (session.getD "") stageNode
      if outcome ≠ "proceed" ∨ maxRetries ≤ attempt then
        { outcome, nextStage := resolveNextStage outcome stageNode }
      else decisionAttempts answers maxRetries stageNode remaining (attempt + 1)
    | .error _ =>
      if (attempt : Int) < maxRetries then
        decisionAttempts answers maxRetries stageNode remaining (attempt + 1)
      else { outcome := "proceed" }

/-- `StageRunner.run_decision`. -/
def runDecision (answers : Nat → Except String (Option String)) (maxRetries : Int)
    (stageNode : StageNode) : DecisionRunResult :=
  decisionAttempts lower answers maxRetries stageNode (maxRetries + 1).toNat 0

/-! ## What the scan finds -/

variable {lower}

/-- The scan comes to `o` exactly when `o` occurs and no name declared before it does. -/
theorem find?_outcomes_eq_some_iff {p : String → Bool} {names : List String} {o : String}
    (hde : o ∈ names) :
    names.find? p = some o ↔ p o = true ∧ ∀ o' ∈ names.takeWhile (· ≠ o), p o' = false := by
  induction names with
  | nil => cases hde
  | cons name names ih =>
    by_cases hna : name = o
    · subst hna
      cases hp : p name with
      | true => simp [hp]
      | false =>
        simp only [Bool.false_eq_true, false_and, iff_false]
        intro hfi
        exact absurd (List.find?_some hfi) (by simp [hp])
    · have hre : o ∈ names := (List.mem_cons.mp hde).resolve_left (Ne.symm hna)
      cases hp : p name with
      | true => simp [hp, hna]
      | false => simp [hp, hna, ih hre]

/-- The default is found too: "proceed" occurs in the answer "proceed". -/
theorem occursIn_proceed : occursIn lower "proceed" "proceed" = true := by
  have hst : Text.strip "proceed" = "proceed" := by decide
  simp [occursIn, Text.contains, hst]

theorem parseDecisionOutcome_eq_iff_find {o : String} {stageNode : StageNode}
    (hde : o ∈ stageNode.outcomeNames) : parseDecisionOutcome lower o stageNode = o ↔
      stageNode.outcomeNames.find? (occursIn lower o) = some o := by
  unfold parseDecisionOutcome
  cases hfi : stageNode.outcomeNames.find? (occursIn lower o) with
  | some found => simp
  | none =>
    simp only [reduceCtorEq, iff_false]
    rintro rfl
    exact absurd occursIn_proceed (List.find?_eq_none.mp hfi _ hde)

/-- An answer that is exactly a declared name is read as that name if and only if
stripping the answer leaves the name in it and no name declared before occurs in it. -/
theorem parseDecisionOutcome_declared_iff {o : String} {stageNode : StageNode}
    (hdeclared : o ∈ stageNode.outcomeNames) : parseDecisionOutcome lower o stageNode = o ↔
      occursIn lower o o = true ∧
        ∀ o' ∈ stageNode.outcomeNames.takeWhile (· ≠ o), occursIn lower o o' = false := by
  rw [parseDecisionOutcome_eq_iff_find hdeclared]
  exact find?_outcomes_eq_some_iff hdeclared

/-- A release decision: `no-go` is declared after `go`. -/
def releaseDecision : StageNode :=
  { id := 3, name := "release", kind := .decision
    decisionOutcomes := [("go", { next := some 4 }), ("no-go", { next := some 1 })] }

theorem parseDecisionOutcome_go : parseDecisionOutcome Text.lower "go" releaseDecision = "go" :=
  (parseDecisionOutcome_declared_iff (by decide)).mpr (by decide)

/-- The answer `no-go` is read as `go`. -/
theorem parseDecisionOutcome_no_go : "no-go" ∈ releaseDecision.outcomeNames ∧
      parseDecisionOutcome Text.lower "no-go" releaseDecision = "go" := by
  decide

end Answers

end Orchestratord.Workflow
