import Orchestratord.Clarifier.Answers

/-! # A clarification between its awaits

One issue is followed: what is done for other issues does not touch its item. A look at the item
stops where it waits for the tracker, and meanwhile an operator may answer. -/

namespace Orchestratord.Clarifier

open Foundation Dict Option ClarificationQueue
open Issues (IssueId Time)

/-- What a look waits for. -/
inductive Await where
  /-- The comments, with the item and the answer that the queue had for it. -/
  | comments (item : ClarificationItem) (own : Option Candidate)
  /-- The comment that asks the author, of a new item or of one whose time is over. -/
  | question
  | mention

structure Desk where
  queue : ClarificationQueue := .empty
  looking : Option Await := none
  /-- The escalation policy was applied to the item. -/
  escalated : Bool := false

inductive DeskInput where
  | request (r : Request) (first : Bool) (now : Time)
  | answer (text : String) (source : AnswerSource) (now : Time)
  | remove
  | look (now : Time)
  | fetched (comments : List Comment) (now : Time)
  | mentioned (mention : Mention) (now : Time)

variable (cfg : ResolverConfig) (id : IssueId)
variable (q : ClarificationQueue)

def applyCandidates (candidates : List Candidate) (now : Time) : ClarificationQueue :=
  match candidates with
  | [] => q
  | [winner] => q.resolve id winner.answer winner.source now
  | c₀ :: c₁ :: _ =>
    let (winner, loser) := resolveConflict cfg c₀ c₁
    notifyRejected (q.resolve id winner.answer winner.source now) id loser now

variable (now : Time)

namespace Desk

variable (s : Desk)

/-- A look at an item that the poll found active, up to its await. -/
def look (item : ClarificationItem) (now : Time) : Desk :=
  let q := s.queue.markExpired id now
  match item.status, item.isExpired now with
  | .awaitingLocal, true =>
    { s with queue := q.markAwaitingAuthor id (some cfg.timeoutAuthor) now, looking := some .mention }
  | .awaitingAuthor, true => { s with queue := q.markExhausted id now, escalated := true }
  | .awaitingLocal, false | .awaitingAuthor, false =>
    { s with looking := some (.comments item (queueCandidate s.queue id item now)) }
  | .pending, false =>
    { s with
      queue := applyCandidates cfg id s.queue (queueCandidate s.queue id item now).toList now }
  | _, _ => s

def step : DeskInput → Desk
  | .request r first now =>
    let r := { r with issueId := id }
    match s.looking, s.queue.get id with
    | none, none =>
      if first then
        { queue := (s.queue.enqueue r cfg.timeoutAuthor now).markAwaitingAuthor id
            (some cfg.timeoutAuthor) now
          looking := some .question }
      else { queue := (s.queue.enqueue r cfg.timeoutLocal now).markAwaitingLocal id now }
    | _, _ => s
  | .answer text source now => { s with queue := s.queue.resolve id text source now }
  | .remove =>
    match s.looking with
    | none => { queue := s.queue.remove id }
    | some _ => s
  | .look now =>
    match s.looking, s.queue.get id with
    | none, some item => s.look cfg id item now
    | _, _ => s
  | .fetched comments now =>
    match s.looking with
    | some (.comments item own) =>
      let s := { s with looking := none }
      match comments.getLast? with
      | none => { s with queue := applyCandidates cfg id s.queue own.toList now }
      | some last =>
        { s with
          queue := applyCandidates cfg id (s.queue.markCommentChecked id (some last.id) now)
            (own.toList ++ (authorCandidate cfg id item comments).toList) now }
    | _ => s
  | .mentioned mention now =>
    match s.looking with
    | some .question =>
      { s with
        looking := none
        queue := (sendAuthorMention s.queue id mention now).getD (s.queue.remove id) }
    | some .mention =>
      { s with
        looking := none
        queue := ((sendAuthorMention s.queue id mention now).getD
          (s.queue.markExpired id now)).markEscalationNotified id now }
    | _ => s

/-- The answer that a step records. -/
def recorded : DeskInput → Option (String × AnswerSource)
  | .answer text source _ => some (text, source)
  | .fetched comments _ =>
    match s.looking with
    | some (.comments item _) =>
      (authorCandidate cfg id item comments).map fun c => (c.answer, c.source)
    | _ => none
  | _ => none

/-- The author of an item whose time is over could not be asked. -/
def unasked : DeskInput → Bool
  | .mentioned .fails _ =>
    match s.looking with
    | some .mention => true
    | _ => false
  | _ => false

/-- What an answer decides in an item. -/
@[ext] structure Verdict where
  answer : Option String
  answerSource : Option AnswerSource
  status : ClarificationStatus

def verdictOf (item : ClarificationItem) : Verdict := ⟨item.answer, item.answerSource, item.status⟩

def verdict : Option Verdict := (q.get id).map verdictOf

def Unresolved : Prop := ∀ v ∈ verdict id s.queue, v.status.isResolved = false

/-- The answer, the source and the status of a resolved item stay, unless it is removed. -/
def Final (s s' : Desk) : Prop := ∀ v ∈ verdict id s.queue, v.status.isResolved →
  ∀ v' ∈ verdict id s'.queue, v' = v

variable (s : Desk) (i : DeskInput)

/-- Nothing comes too late: what is recorded for a resolved item is the answer it has, and it is
not the author of a resolved item who could not be asked. -/
def InTime : Prop :=
  (∀ p ∈ s.recorded cfg id i, ∀ v ∈ verdict id s.queue, v.status.isResolved →
    (v.answer, v.answerSource) = (some p.1, some p.2)) ∧
  (s.unasked i → s.Unresolved id)

/-- The item is resolved, or the next poll returns it, or the escalation policy was applied. -/
def Remembered : Prop := ∀ v ∈ verdict id s.queue,
  v.status.isResolved ∨ v.status.isActive ∨ s.escalated

/-- The author of an item can be asked once the operator's time is over. -/
def Asked : Prop := s.unasked i → verdict id s.queue = none ∨ s.escalated

/-- The queue has no answer of its own for an item that is looked at. -/
def Plain : Prop := ∀ item own, s.looking = some (.comments item own) → own = none

variable {s : Desk}

theorem plain_step (i : DeskInput) (h : s.Plain) : (s.step cfg id i).Plain := by
  unfold Plain at h ⊢
  cases i <;> dsimp only [step]
  case look =>
    split
    · rename_i item _ hget
      unfold look
      split <;> simp_all
      all_goals
        rename_i hst _
        exact queueCandidate_eq_none hget (by rw [hst]; rfl) _
    · exact h
  all_goals (repeat' split) <;> simp_all

theorem verdict_edit {f : ClarificationItem → ClarificationItem} {g : Verdict → Verdict} (h : ∀ item, verdictOf (f item) = g (verdictOf item)) :
    verdict id (q.edit id now f) = (verdict id q).map g := by
  unfold verdict
  rw [get_edit_self, map_map, map_map]
  exact map_congr fun item _ => h item

theorem verdict_markCommentChecked (commentId : Option String)
    (now : Time) : verdict id (q.markCommentChecked id commentId now) = verdict id q := by
  rw [markCommentChecked, verdict_edit, map_id']
  exact fun _ => rfl

theorem verdict_markEscalationNotified :
    verdict id (q.markEscalationNotified id now) = verdict id q := by
  rw [markEscalationNotified, verdict_edit, map_id']
  exact fun _ => rfl

/-- What a step does to the item, by the answer it records and whether the author was unasked. -/
inductive Effect (s s' : Desk) : Option (String × AnswerSource) → Bool → Prop
  | same (hve : verdict id s'.queue = verdict id s.queue) (hes : s'.escalated = s.escalated) :
    Effect s s' none false
  | gone (hve : verdict id s'.queue = none) : Effect s s' none false
  | moved (hun : s.Unresolved id) (hac : s'.escalated ∨ ∀ v ∈ verdict id s'.queue, v.status.isActive) :
    Effect s s' none false
  | answered (text : String) (source : AnswerSource) (hve : verdict id s'.queue = (verdict id s.queue).map
      fun v => ⟨some text, some source, resolvedStatus source v.status⟩)
    (hes : s'.escalated = s.escalated) : Effect s s' (some (text, source)) false
  | expired (hve : verdict id s'.queue = (verdict id s.queue).map fun v =>
      { v with status := expiredStatus v.status })
    (hes : s'.escalated = s.escalated) : Effect s s' none true

theorem effect_step (h : s.Plain) (i : DeskInput) :
    Effect id s (s.step cfg id i) (s.recorded cfg id i) (s.unasked i) := by
  cases i with
  | request =>
    dsimp only [step]
    split
    · rename_i hget
      refine .moved (by simp [Unresolved, verdict, hget]) (.inr ?_)
      split <;> simp [verdict, markAwaitingAuthor, markAwaitingLocal, get_edit_self, enqueue] <;> rfl
    · exact .same rfl rfl
  | answer text source now => exact .answered text source (verdict_edit id _ now fun _ => rfl) rfl
  | remove =>
    dsimp only [step]
    split
    · exact .gone (by simp [verdict, remove])
    · exact .same rfl rfl
  | look =>
    dsimp only [step]
    split
    · rename_i item _ hget
      have hun : item.status.isActive → s.Unresolved id := fun hac => by
        simp [Unresolved, verdict, hget, verdictOf, ClarificationStatus.isResolved_of_isActive hac]
      unfold look
      split
      · rename_i hst _
        refine .moved (hun (by rw [hst]; rfl)) (.inr ?_)
        simp [verdict, markAwaitingAuthor, markExpired, get_edit_self, hget]
        rfl
      · rename_i hst _
        exact .moved (hun (by rw [hst]; rfl)) (.inl rfl)
      · exact .same rfl rfl
      · exact .same rfl rfl
      · rename_i hst _
        rw [queueCandidate_eq_none hget (by rw [hst]; rfl)]
        exact .same rfl rfl
      · exact .same rfl rfl
    · exact .same rfl rfl
  | fetched comments now =>
    dsimp only [step, recorded]
    split
    · rename_i item own hlo
      cases h item own hlo
      split
      · rename_i hem
        rw [List.getLast?_eq_none_iff] at hem
        subst hem
        simpa [authorCandidate, authorized] using .same rfl rfl
      · cases authorCandidate cfg id item comments with
        | none => exact .same (verdict_markCommentChecked ..) rfl
        | some c =>
          refine .answered c.answer c.source ?_ rfl
          rw [← verdict_markCommentChecked id s.queue]
          exact verdict_edit id _ now fun _ => rfl
    · exact .same rfl rfl
  | mentioned mention now =>
    dsimp only [step, unasked]
    cases mention with
    | posted commentId =>
      split <;> refine .same ?_ rfl <;> cases htr : Issues.truthy commentId
      all_goals
        simp [sendAuthorMention, htr, verdict_markCommentChecked, verdict_markEscalationNotified]
    | fails =>
      rcases hlo : s.looking with _ | what
      · exact .same rfl rfl
      cases what with
      | comments => exact .same rfl rfl
      | question => exact .gone (by simp [verdict, remove, sendAuthorMention])
      | mention =>
        refine .expired ((verdict_markEscalationNotified ..).trans ?_) rfl
        show verdict id (s.queue.markExpired id now) = _
        exact verdict_edit id _ now fun _ => rfl

theorem final_step_iff (h : s.Plain) (i : DeskInput) :
    Final id s (s.step cfg id i) ↔ s.InTime cfg id i := by
  have hef := effect_step cfg id h i
  unfold InTime Final
  generalize s.recorded cfg id i = p, s.unasked i = b at hef ⊢
  cases hef with
  | same =>
    simp
    grind
  | gone hve => simp [hve]
  | moved hun =>
    simp
    intro v hv hre
    cases hre.symm.trans (hun v hv)
  | answered _ source hve =>
    have hst : ∀ status, ClarificationStatus.isResolved status →
        resolvedStatus source status = status := by
      rintro ⟨⟩ hre <;> first | rfl | cases hre
    rw [hve]
    cases verdict id s.queue with
    | none => simp
    | some =>
      simp only [map_some, Option.mem_def, some.injEq, forall_eq', Prod.mk.injEq]
      rw [Verdict.ext_iff]
      grind
  | expired hve =>
    have hst : ∀ status, ClarificationStatus.isResolved status → expiredStatus status ≠ status := by
      rintro ⟨⟩ hre <;> simp_all [expiredStatus, ClarificationStatus.isResolved]
    rw [hve, Unresolved]
    cases verdict id s.queue with
    | none => simp
    | some =>
      simp only [map_some, Option.mem_def, some.injEq, forall_eq']
      grind

theorem remembered_step_iff (h : s.Plain) (hre : s.Remembered id) (i : DeskInput) :
    (s.step cfg id i).Remembered id ↔ s.Asked id i := by
  have hef := effect_step cfg id h i
  unfold Asked
  generalize s.recorded cfg id i = p, s.unasked i = b at hef ⊢
  unfold Remembered at hre ⊢
  cases hef with
  | same hve hes =>
    rw [hve, hes]
    simpa using hre
  | gone hve => simp [hve]
  | moved => grind
  | answered _ source hve hes =>
    have hst : ∀ status, status.isResolved ∨ status.isActive → (resolvedStatus source status).isResolved := by
      rintro status (hre | hac)
      · cases status <;> first | rfl | cases hre
      · exact isResolved_resolvedStatus hac source
    rw [hve, hes]
    cases hv : verdict id s.queue with
    | none => simp
    | some =>  grind
  | expired hve hes =>
    have hst : ∀ status, (expiredStatus status).isResolved = false ∧
        (expiredStatus status).isActive = false := by rintro ⟨⟩ <;> exact ⟨rfl, rfl⟩
    rw [hve, hes]
    cases verdict id s.queue <;> simp [hst]

variable (inputs : List DeskInput)

/-- An answer is final in a run exactly when nothing in it comes too late. -/
theorem final_iff_inTime :
    Guarded (step cfg id) (InTime cfg id) {} inputs ↔ ∀ done i, done ++ [i] <+: inputs →
        Final id (runFrom (step cfg id) {} done) (runFrom (step cfg id) {} (done ++ [i])) := by
  have hrun : Guarded (step cfg id) (fun s _ => s.Plain) {} inputs := by
    rw [Guarded.iff_forall]
    intro done i _
    exact Guarded.always (fun _ i hs => plain_step cfg id i hs) (fun _ _ hlo => by cases hlo) done
  refine (hrun.congr fun s i hs => (final_step_iff cfg id hs i).symm).trans ?_
  simp only [Guarded.iff_forall, runFrom_append, runFrom_cons, runFrom_nil]

/-- A question to the operator. -/
def question : DeskInput := .request ⟨"7", "#7", "Which one?", [], "", none, none⟩ false 0

/-- A second answer of the operator takes the place of the first. -/
theorem second_answer_recorded :
    let s := runFrom (step {} "7") {} [question, .answer "red" .clarificationQueue 1]
    ¬ Final "7" s (s.step {} "7" (.answer "blue" .clarificationQueue 2)) := by
  intro s h
  exact absurd (congrArg Verdict.answer (h _ rfl rfl _ rfl)) (by decide)

/-- In a run in which every author can be asked once the operator's time is over, and in no
other, no clarification is forgotten. -/
theorem remembered_iff_asked : Guarded (step cfg id) (Asked id) {} inputs ↔
      ∀ start, start <+: inputs → Remembered id (runFrom (step cfg id) {} start) := by
  refine Guarded.iff_throughout (fun _ i hs => plain_step cfg id i hs)
    (fun _ i hp h => remembered_step_iff cfg id hp h i) (fun _ _ hlo => by cases hlo) ?_
  simp [Remembered, verdict]

/-- The operator did not answer in time and the mention failed. -/
theorem forgotten_after_failed_mention : ¬ Remembered "7" (runFrom (step {} "7") {}
    [question, .look 1800000, .mentioned .fails 1800000]) := by
  intro h
  rcases h _ rfl with h | h | h <;> cases h

end Desk

end Orchestratord.Clarifier
