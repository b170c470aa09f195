import Orchestratord.Commands.Host

/-! # Commands of other people

With the role check on, a command of somebody who is not the recorded author should do
nothing. `Harmless` says so of one look of the poll at an issue, and `Tolerated` is when it
is true: the role check only sees retries and follow-ups, so a rebase goes through unless
one is due anyway, and an unblock works on every abandoned issue. -/

namespace Orchestratord.Commands

open Foundation
open Daemon Orchestrator Option Dict Registry

/-- The sources of an intent that the daemon treats in a way of their own. Labels and
comments are not told apart. -/
def standing (source : Option IntentSource) : Option IntentSource :=
  source.filter fun source => source = .cli ∨ source = .chat

/-- What a record says about the issue's fate. -/
structure Face where
  status : IssueStatus
  intent : Intent
  standing : Option IntentSource
  retryCount : Nat
  deriving DecidableEq, Repr

def face (rec : IssueRecord) : Face where
  status := rec.status
  intent := rec.intent
  standing := standing rec.intentSource
  retryCount := rec.retryCount

/-- What a command must not change: the record, the rebase counter, the sessions and the
launch under way, and the branches that were rewritten. -/
structure Visible where
  record : Option Face
  rebaseAttemptCount : Nat
  sessions : List Session
  phase : Phase
  rebases : List IssueId
  deriving DecidableEq

namespace Host

variable (cfg : Settings) (s : Host)

def visible (id : IssueId) : Visible where
  record := (s.daemon.registry.get id).map face
  rebaseAttemptCount := (s.threads id).rebaseAttemptCount
  sessions := s.daemon.sessions
  phase := s.daemon.phase
  rebases := s.rebases

/-- The issue the poll is about to look at, and the command it finds there if it is not by
the issue's author. -/
def foreign : Option (IssueId × CommandIntent) :=
  match s.daemon.phase with
  | .launching _ id .resolve =>
    ((fetchIssueCommandIntent cfg (s.threads id)).filter (! byAuthor (s.threads id) ·)).map (id, ·)
  | _ => none

variable (input : Input)

/-- A command of somebody else leaves the issue alone, or the poll does what it does without
the command. A comment as such does nothing. -/
def Harmless : Prop :=
  match input with
  | .comment id _ => (s.step cfg input).visible id = s.visible id
  | .resolve labels posted answer =>
    match s.foreign cfg with
    | none => True
    | some (id, _) =>
      (s.step cfg input).visible id = { s.visible id with phase := .idle } ∨
        (s.step cfg input).visible id = (s.resolveWith cfg id labels none posted answer).visible id
  | _ => True

instance : Decidable (s.Harmless cfg input) := by
  unfold Harmless
  split
  · infer_instance
  · split <;> infer_instance
  · infer_instance

variable (id : IssueId) (labels : List String)

/-- The intent without the comments. -/
def baseIntent : Intent := (s.resolveIntent cfg id labels none).1

/-- The issue is not looked at unless it is to be reopened. -/
def Done : Prop := id ∈ s.daemon.completed ∨ id ∈ s.daemon.pendingReview

instance : Decidable (s.Done id) := inferInstanceAs (Decidable (_ ∨ _))

/-- A further rebase command finds its intent recorded and its attempts used up. -/
def RebaseSpent : Prop :=
  (s.visible id).record.all fun face => face.intent = .rebase ∧ face.standing = none ∧
    cfg.maxRebaseAttemptsPerIssue ≤ (s.threads id).rebaseAttemptCount

instance : Decidable (s.RebaseSpent cfg id) :=
  inferInstanceAs (Decidable (_ = true))

/-- What the rest of the state must be for a command to have no effect of its own. -/
def Covered : Command → Prop
  | .retry | .followup => True
  | .rebase => s.baseIntent cfg id labels = .blocked ∨ s.baseIntent cfg id labels = .rebase ∨
      s.RebaseSpent cfg id
  | .unblock => (s.visible id).record.all (·.status ≠ .abandoned) ∨
      s.baseIntent cfg id labels = .blocked ∨ (s.baseIntent cfg id labels).reopens

instance (command : Command) : Decidable (s.Covered cfg id labels command) := by
  unfold Covered
  split <;> infer_instance

def Tolerated : Input → Prop
  | .resolve labels _ _ =>
    match s.foreign cfg with
    | none => True
    | some (id, found) => s.Done id ∨ s.Covered cfg id labels found.command
  | _ => True

instance : Decidable (s.Tolerated cfg input) := by
  unfold Tolerated
  split
  · split <;> infer_instance
  · infer_instance

/-- The daemon's own login is let through by the role check. -/
def NotTheDaemon (_ : Input) : Prop :=
  (s.foreign cfg).all fun found => found.2.authorLogin ≠ some "orchestratord"

instance : Decidable (s.NotTheDaemon cfg input) :=
  inferInstanceAs (Decidable (_ = true))

/-! ## What the parts of the poll leave alone -/

section Parts

variable {cfg : Settings} {s : Host} {id : IssueId} {labels : List String} {posted : Option String}
  {answer : RebaseAnswer}

theorem rebaseAttemptCount_postCommandAcknowledgement (thread : Thread) (account : Option String)
    (command : Command) :
    (thread.postCommandAcknowledgement account command posted).rebaseAttemptCount =
      thread.rebaseAttemptCount := by
  unfold Thread.postCommandAcknowledgement Thread.advance
  cases posted <;> dsimp only <;> split <;> rfl

variable {thread : Thread} {found : CommandIntent} {origin : IntentSource}

theorem visible_setThread (h : thread.rebaseAttemptCount = (s.threads id).rebaseAttemptCount) :
    (s.setThread id thread).visible id = s.visible id := by
  simp [visible, setThread, h]

variable (useForcePush : Bool)

/-- What a rebase leaves of the attempts counted before it. -/
def attemptsAfter (attempts : Nat) : RebaseAnswer → Nat
  | .result true _ => if useForcePush then 0 else attempts
  | _ => attempts

theorem rebaseAttemptCount_processRebaseIntent :
    (thread.processRebaseIntent useForcePush answer).rebaseAttemptCount =
      attemptsAfter useForcePush thread.rebaseAttemptCount answer := by
  rcases answer with _ | _ | ⟨_ | _, _ | _⟩ <;> rfl

/-! ## The role check -/

theorem eligible_eq_byAuthor (hro : cfg.allowAnyoneToRetry = false) (thread : Thread)
    (hbot : found.authorLogin ≠ some "orchestratord") :
    isCommandAuthorEligible cfg thread found.authorLogin = byAuthor thread found := by
  unfold isCommandAuthorEligible byAuthor
  rw [hro]
  rcases hau : found.authorLogin with _ | login
  · cases thread.authorLogin <;> simp
  rw [hau] at hbot
  have hlo : login ≠ "orchestratord" := fun h => hbot (by rw [h])
  rcases thread.authorLogin with _ | author
  · simp [hlo]
  by_cases hem : login = ""
  · subst hem
    by_cases ha : author = ""
    · simp [ha]
    · simp [Ne.symm ha]
  · by_cases ha : author = login
    · simp [ha]
    · simp [hlo, ha, Ne.symm ha]

/-- A refused author gets no further than the record's other intents. -/
theorem resolveWith_refused
    (hnot : isCommandAuthorEligible cfg (s.threads id) found.authorLogin = false) :
    s.resolveWith cfg id labels (some found) posted answer =
      if (s.resolveIntent cfg id labels (some found)).1.reopens then
        (s.setThread id
          ((s.threads id).rejectUnauthorizedCommand cfg.account found posted)).passOver
      else if s.Done id then s.passOver
      else (s.honour cfg id posted (some found)).dispatch cfg id
        (s.resolveIntent cfg id labels (some found)).1
        (s.resolveIntent cfg id labels (some found)).2 answer := by
  unfold resolveWith Done
  generalize s.resolveIntent cfg id labels (some found) = resolved
  obtain ⟨intent, _⟩ := resolved
  cases hre : intent.reopens with
  | true => simp [hre, hnot, Option.filter]
  | false =>
    have hrt : intent ≠ .retry := by
      rintro rfl
      cases hre
    by_cases hdo : id ∈ s.daemon.completed ∨ id ∈ s.daemon.pendingReview
    · simp [hre, hdo]
    · simp [hre, hrt, hdo]

theorem resolveWith_none : s.resolveWith cfg id labels none posted answer =
      if s.Done id ∧ ¬ (s.baseIntent cfg id labels).reopens then s.passOver
      else if s.baseIntent cfg id labels = .retry ∧ ¬ s.checkRetryRateLimit cfg id then s.passOver
      else s.dispatch cfg id (s.baseIntent cfg id labels)
        (s.resolveIntent cfg id labels none).2 answer := by
  unfold resolveWith baseIntent Done
  generalize s.resolveIntent cfg id labels none = resolved
  simp [honour]

/-! ## What the intents do -/

/-- An intent of a command that ends up as something else than a retry or a follow-up is
what labels and command line say anyway. -/
theorem resolveIntent_outbid (hco : (commandToIntent found.command).reopens)
    (hme : (s.resolveIntent cfg id labels (some found)).1.reopens = false) :
    s.resolveIntent cfg id labels (some found) = s.resolveIntent cfg id labels none := by
  revert hco hme
  unfold resolveIntent
  simp only [map_some, isSome_some]
  generalize intentFromLabelSet cfg.intentLabels labels = label
  generalize commandToIntent found.command = command
  generalize cliIntent (s.daemon.registry.get id) = cli
  cases label <;> cases command <;> cases cli <;> decide

theorem resolveIntent_rebase (hco : found.command = .rebase) :
    (s.resolveIntent cfg id labels (some found)).1 =
      (if s.baseIntent cfg id labels = .blocked then .blocked else .rebase) ∧
    (s.baseIntent cfg id labels = .blocked →
      (s.resolveIntent cfg id labels (some found)).2 = (s.resolveIntent cfg id labels none).2) ∧
    (s.baseIntent cfg id labels = .rebase →
      standing (some (s.resolveIntent cfg id labels (some found)).2) =
        standing (some (s.resolveIntent cfg id labels none).2)) ∧
    (s.baseIntent cfg id labels ≠ .blocked → s.baseIntent cfg id labels ≠ .rebase →
      (s.resolveIntent cfg id labels (some found)).2 = .command) := by
  unfold baseIntent resolveIntent
  simp only [map_some, isSome_some, hco]
  generalize intentFromLabelSet cfg.intentLabels labels = label
  generalize cliIntent (s.daemon.registry.get id) = cli
  cases label <;> cases cli <;> decide

theorem resolveIntent_unblock (hco : found.command = .unblock) :
    (s.resolveIntent cfg id labels (some found)).1 = s.baseIntent cfg id labels ∧
      standing (some (s.resolveIntent cfg id labels (some found)).2) =
        standing (some (s.resolveIntent cfg id labels none).2) := by
  unfold baseIntent resolveIntent
  simp only [map_some, isSome_some, hco]
  generalize intentFromLabelSet cfg.intentLabels labels = label
  generalize cliIntent (s.daemon.registry.get id) = cli
  cases label <;> cases cli <;> decide

variable (r : Registry)

theorem record_markIntent (intent : Intent) (origin : IntentSource) :
    ((r.markIntent id intent origin).get id).map face =
      ((r.get id).map face).map fun f => { f with intent, standing := standing (some origin) } := by
  rw [markIntent, get_modify_self, map_map, map_map]
  rfl

theorem record_mark (status : IssueStatus) :
    ((r.mark id status).get id).map face = ((r.get id).map face).map fun f => { f with status } := by
  rw [mark, get_modify_self, map_map, map_map]
  rfl

theorem record_clearIntent : ((r.clearIntent id).get id).map face =
      ((r.get id).map face).map fun f => { f with intent := .none, standing := none } := by
  rw [clearIntent, get_modify_self, map_map, map_map]
  rfl

/-- What acting on an intent shows, unless it is to reopen the issue. Of the source only its
standing matters, and of the thread only the rebase counter. -/
def acted (cfg : Settings) (s : Host) (id : IssueId) (source : Option IntentSource)
    (answer : RebaseAnswer) : Intent → Visible
  | .blocked => { s.visible id with
      record := (s.visible id).record.map fun f =>
        { f with status := .abandoned, intent := .blocked, standing := source }
      phase := .idle }
  | .rebase =>
    let attempts := (s.visible id).rebaseAttemptCount
    let allowed := attempts < cfg.maxRebaseAttemptsPerIssue
    let started := allowed ∧ (s.visible id).record.isSome
    { s.visible id with
      record := (s.visible id).record.map fun f =>
        if (allowed ∧ answer ≠ .raised) ∧ source = some .cli then
          { f with intent := .none, standing := none }
        else { f with intent := .rebase, standing := source }
      phase := .idle
      rebaseAttemptCount :=
        if started then attemptsAfter cfg.useForcePush (attempts + 1) answer else attempts
      rebases := if started ∧ answer ≠ .unavailable then s.rebases ++ [id] else s.rebases }
  | .none | .retry | .followup => { s.visible id with
      phase := if s.daemon.registry.isTerminal id ∨ s.daemon.registry.hasPr id then .idle
        else .launching (.poll (source = some .cli)) id .admission }

variable {intent : Intent}

theorem visible_dispatch (hintent : intent.reopens = false) :
    (s.dispatch cfg id intent origin answer).visible id =
      s.acted cfg id (standing (some origin)) answer intent := by
  have hcli : standing (some origin) = some .cli ↔ origin = .cli := by cases origin <;> decide
  unfold dispatch
  cases intent with
  | retry | followup => cases hintent
  | none =>
    rw [if_neg (by decide), acted]
    simp only [actOnIntent, hcli]
    split <;> rfl
  | blocked =>
    rw [if_neg (by decide), acted]
    simp only [visible, actOnIntent, record_mark, record_markIntent, map_map]
    rfl
  | rebase =>
    have hre (allowed : Bool) :
        ((s.daemon.actOnIntent cfg.daemon id .rebase origin allowed).registry.get id).map face =
          ((s.daemon.registry.get id).map face).map fun f =>
            if allowed ∧ standing (some origin) = some .cli then
              { f with intent := .none, standing := none }
            else { f with intent := .rebase, standing := standing (some origin) } := by
      simp only [actOnIntent, hcli, decide_eq_true_eq]
      split
      · rw [record_clearIntent, record_markIntent, map_map]; rfl
      · exact record_markIntent _ _ _
    have hrs (allowed : Bool) :
        (s.daemon.actOnIntent cfg.daemon id .rebase origin allowed).sessions = s.daemon.sessions ∧
          (s.daemon.actOnIntent cfg.daemon id .rebase origin allowed).phase = .idle := ⟨rfl, rfl⟩
    rw [if_pos rfl, acted, dispatchRebase]
    split
    case isTrue hco =>
      by_cases hkn : (s.daemon.registry.get id).isSome
      · simp [visible, hre, hrs, hco, hkn, rebaseAttemptCount_processRebaseIntent]
      · simp [visible, hre, hrs, hco, hkn]
    case isFalse hco => simp [visible, hre, hrs, hco]

theorem acted_setThread (h : thread.rebaseAttemptCount = (s.threads id).rebaseAttemptCount)
    (source : Option IntentSource) (intent : Intent) :
    (s.setThread id thread).acted cfg id source answer intent =
      s.acted cfg id source answer intent := by
  have hvi := visible_setThread h
  cases intent <;> simp only [acted, hvi] <;> rfl

section Honoured

variable (hintent : intent.reopens = false)
include hintent

/-- An acknowledged command other than `unblock` has no effect of its own. -/
theorem visible_honour_dispatch (hco : found.command ≠ .unblock) :
    ((s.honour cfg id posted (some found)).dispatch cfg id intent origin answer).visible id =
      s.acted cfg id (standing (some origin)) answer intent := by
  rw [visible_dispatch hintent, honour, if_neg hco]
  exact acted_setThread (rebaseAttemptCount_postCommandAcknowledgement _ _ _) _ intent

/-- An acknowledged `unblock` changes the record before the intent is acted on. -/
theorem visible_honour_unblock (hco : found.command = .unblock) :
    ((s.honour cfg id posted (some found)).dispatch cfg id intent origin answer).visible id =
      ({ s with daemon := { s.daemon with registry := s.daemon.registry.unblock id } } :
        Host).acted cfg id (standing (some origin)) answer intent := by
  rw [visible_dispatch hintent, honour, if_pos hco]
  exact acted_setThread
    (s := { s with daemon := { s.daemon with registry := s.daemon.registry.unblock id } })
    (rebaseAttemptCount_postCommandAcknowledgement _ _ _) _ intent

end Honoured

theorem visible_resolveWith_none (hdo : ¬ s.Done id)
    (hba : (s.baseIntent cfg id labels).reopens = false) :
    (s.resolveWith cfg id labels none posted answer).visible id =
      s.acted cfg id (standing (some (s.resolveIntent cfg id labels none).2)) answer
        (s.baseIntent cfg id labels) := by
  have hrt : s.baseIntent cfg id labels ≠ .retry := by
    intro heq
    rw [heq] at hba
    cases hba
  rw [resolveWith_none, if_neg fun h => hdo h.1, if_neg fun h => hrt h.1, visible_dispatch hba]

/-! ## Rebase commands -/

/-- A rebase is counted and done unless the attempts are used up. -/
theorem acted_rebase_iff (cfg : Settings) (s : Host) (id : IssueId) (answer : RebaseAnswer) :
    let after := s.acted cfg id none answer .rebase
    after.rebaseAttemptCount = (s.threads id).rebaseAttemptCount ∧ after.rebases = s.rebases ↔
      cfg.maxRebaseAttemptsPerIssue ≤ (s.threads id).rebaseAttemptCount ∨
        (s.visible id).record = none := by
  have hco : (s.visible id).rebaseAttemptCount = (s.threads id).rebaseAttemptCount := rfl
  by_cases hst : (s.threads id).rebaseAttemptCount < cfg.maxRebaseAttemptsPerIssue ∧
      (s.visible id).record.isSome
  · have hnot : ¬ (cfg.maxRebaseAttemptsPerIssue ≤ (s.threads id).rebaseAttemptCount ∨
        (s.visible id).record = none) := by
      rintro (hli | hno)
      · omega
      · simp [hno] at hst
    simp only [acted, hco, hst, hnot, iff_false]
    rintro ⟨hat, hre⟩
    cases answer with
    | unavailable => simp [attemptsAfter] at hat
    | raised | result => simp at hre
  · have hsp : cfg.maxRebaseAttemptsPerIssue ≤ (s.threads id).rebaseAttemptCount ∨
        (s.visible id).record = none := by
      rcases lt_or_ge (s.threads id).rebaseAttemptCount cfg.maxRebaseAttemptsPerIssue with
        hle | hli
      · exact .inr (not_isSome_iff_eq_none.mp fun h => hst ⟨hle, h⟩)
      · exact .inl hli
    exact iff_of_true (by simp [acted, hco, hst]) hsp

/-- Without a rebase the poll keeps the rebase counter and the branch, and an intent it
records is to reopen the issue. -/
theorem visible_base (hbl : s.baseIntent cfg id labels ≠ .blocked)
    (hre : s.baseIntent cfg id labels ≠ .rebase) :
    let after := (s.resolveWith cfg id labels none posted answer).visible id
    after.rebaseAttemptCount = (s.threads id).rebaseAttemptCount ∧ after.rebases = s.rebases ∧
      (after.record = (s.visible id).record ∨ ∃ f, after.record = some f ∧ f.intent.reopens) := by
  have hma : ∀ (intent : Intent) (origin : IntentSource), intent.reopens →
      ((s.daemon.registry.markIntent id intent origin).get id).map face = (s.visible id).record ∨
        ∃ f, ((s.daemon.registry.markIntent id intent origin).get id).map face = some f ∧
          f.intent.reopens := by
    intro _ _ hrp
    rw [record_markIntent]
    cases hrec : (s.daemon.registry.get id).map face with
    | none => exact .inl hrec.symm
    | some => exact .inr ⟨_, rfl, hrp⟩
  rw [resolveWith_none]
  split
  · exact ⟨rfl, rfl, .inl rfl⟩
  split
  · exact ⟨rfl, rfl, .inl rfl⟩
  unfold dispatch
  rw [if_neg hre]
  refine ⟨rfl, rfl, ?_⟩
  generalize (s.resolveIntent cfg id labels none).2 = origin
  cases hba : s.baseIntent cfg id labels with
  | blocked => exact absurd hba hbl
  | rebase => exact absurd hba hre
  | none =>
    left
    dsimp only [actOnIntent]
    split <;> rfl
  | retry => exact hma .retry origin rfl
  | followup =>
    dsimp only [actOnIntent]
    split
    · unfold collectFeedback
      split
      · exact hma .followup origin rfl
      · exact hma .followup origin rfl
    · exact hma .followup origin rfl

theorem rebase_harmless_iff (hcm : found.command = .rebase)
    (hbl : s.baseIntent cfg id labels ≠ .blocked)
    (hrb : s.baseIntent cfg id labels ≠ .rebase) :
    let after := ((s.honour cfg id posted (some found)).dispatch cfg id .rebase .command
      answer).visible id
    (after = { s.visible id with phase := .idle } ∨
        after = (s.resolveWith cfg id labels none posted answer).visible id) ↔
      s.RebaseSpent cfg id := by
  intro after
  have haf : after = s.acted cfg id none answer .rebase :=
    visible_honour_dispatch rfl (by rw [hcm]; decide)
  have hsp := acted_rebase_iff cfg s id answer
  have hrec : after.record = (s.visible id).record.map fun f =>
      { f with intent := .rebase, standing := none } := by simp [haf, acted]
  constructor
  · intro hha
    have hke : (after.rebaseAttemptCount = (s.threads id).rebaseAttemptCount ∧
        after.rebases = s.rebases) ∧ (after.record = (s.visible id).record ∨
          ∃ f, after.record = some f ∧ f.intent.reopens) := by
      rcases hha with heq | heq
      · rw [heq]
        exact ⟨⟨rfl, rfl⟩, .inl rfl⟩
      · rw [heq, and_assoc]
        exact visible_base hbl hrb
    obtain ⟨hco, hrc⟩ := hke
    rw [haf] at hco
    have hli := hsp.mp hco
    unfold RebaseSpent
    rcases hold : (s.visible id).record with _ | f
    · rfl
    rw [hold] at hrec hrc hli
    rcases hrc with heq | ⟨g, heq, hre⟩
    · have hf := some.inj (hrec.symm.trans heq)
      have hintent : f.intent = .rebase := (congrArg Face.intent hf).symm
      have hst : f.standing = none := (congrArg Face.standing hf).symm
      have hle := hli.resolve_right (by simp)
      simp [hintent, hst, hle]
    · have hg := some.inj (hrec.symm.trans heq)
      rw [← hg] at hre
      cases hre
  · intro hs
    left
    unfold RebaseSpent at hs
    obtain ⟨hsp', hsa⟩ : (cfg.maxRebaseAttemptsPerIssue ≤ (s.threads id).rebaseAttemptCount ∨
        (s.visible id).record = none) ∧ after.record = (s.visible id).record := by
      rw [hrec]
      rcases hold : (s.visible id).record with _ | _
      · exact ⟨.inr rfl, rfl⟩
      rw [hold] at hs
      simp only [all_some, decide_eq_true_eq] at hs
      obtain ⟨hintent, hst, hle⟩ := hs
      exact ⟨.inl hle, by rw [map_some, ← hintent, ← hst]⟩
    obtain ⟨_, _⟩ := hsp.mpr hsp'
    rw [haf] at hsa ⊢
    show .mk _ _ _ _ _ = Visible.mk _ _ _ _ _
    congr 1

/-! ## Unblock commands -/

theorem record_unblock : ((r.unblock id).get id).map face = ((r.get id).map face).map fun f =>
      if f.status = .abandoned then
        { f with status := .pending, intent := .none, standing := none }
      else f := by
  rw [unblock, get_modify_self, map_map, map_map]
  congr 1
  ext rec
  by_cases h : rec.status = .abandoned <;> simp [face, h, standing]

/-- There is nothing to unblock. -/
theorem unblock_eq_self (hst : (s.visible id).record.all (·.status ≠ .abandoned)) :
    s.daemon.registry.unblock id = s.daemon.registry := by
  refine modify_eq_self _ _ _ fun rec hget => ?_
  have hrec : rec.status ≠ .abandoned := by
    simpa [visible, hget, face] using hst
  rw [if_neg hrec]

/-- Neither a rebase nor the lack of an intent touches the status. -/
theorem status_acted (s : Host) (hintent : intent = .none ∨ intent = .rebase)
    (source : Option IntentSource) : (s.acted cfg id source answer intent).record.map Face.status =
      (s.visible id).record.map Face.status := by
  rcases hintent with rfl | rfl
  · rfl
  simp only [acted, map_map]
  congr 1
  ext f
  split <;> rfl

theorem unblock_harmless_iff (hcm : found.command = .unblock) (hdo : ¬ s.Done id)
    (hba : (s.baseIntent cfg id labels).reopens = false)
    (hor : standing (some origin) = standing (some (s.resolveIntent cfg id labels none).2)) :
    let after := ((s.honour cfg id posted (some found)).dispatch cfg id
      (s.baseIntent cfg id labels) origin answer).visible id
    (after = { s.visible id with phase := .idle } ∨
        after = (s.resolveWith cfg id labels none posted answer).visible id) ↔
      s.Covered cfg id labels .unblock := by
  intro after
  have haf : after = _ := visible_honour_unblock hba hcm
  have hno : (s.resolveWith cfg id labels none posted answer).visible id = _ :=
    visible_resolveWith_none hdo hba
  constructor
  · intro hha
    by_contra hco
    simp only [Covered, not_or] at hco
    obtain ⟨hst, hbl, -⟩ := hco
    have hintent : s.baseIntent cfg id labels = .none ∨ s.baseIntent cfg id labels = .rebase := by
      revert hba hbl
      cases s.baseIntent cfg id labels <;> simp [Intent.reopens]
    obtain ⟨f, hold, hab⟩ : ∃ f, (s.visible id).record = some f ∧ f.status = .abandoned := by
      cases hold : (s.visible id).record with
      | none => simp [hold] at hst
      | some f => exact ⟨f, rfl, by simpa [hold] using hst⟩
    have hpe : after.record.map Face.status = some .pending := by
      rw [haf, status_acted _ hintent]
      show (((s.daemon.registry.unblock id).get id).map face).map Face.status = _
      rw [record_unblock, show (s.daemon.registry.get id).map face = some f from hold]
      simp [hab]
    have hke : after.record.map Face.status = some .abandoned := by
      rcases hha with heq | heq
      · rw [heq, hold, map_some, hab]
      · rw [heq, hno, status_acted _ hintent, hold, map_some, hab]
    exact absurd (hpe.symm.trans hke) (by decide)
  · rintro (hst | hbl | hre)
    · right
      rw [haf, unblock_eq_self hst, hno, hor]
    · right
      rw [haf, hno, hor, hbl]
      let block (f : Face) : Face := { f with
        status := .abandoned
        intent := .blocked
        standing := standing (some (s.resolveIntent cfg id labels none).2) }
      have hrc : (((s.daemon.registry.unblock id).get id).map face).map block =
          (s.visible id).record.map block := by
        rw [record_unblock, map_map]
        refine map_congr fun f _ => ?_
        by_cases h : f.status = .abandoned <;> simp [block, h]
      exact congrArg (fun record => ({ s.visible id with record, phase := .idle } : Visible)) hrc
    · rw [hba] at hre
      cases hre

/-! ## One look at an issue -/

/-- A command whose author the role check refuses has no effect of its own exactly when the
issue is not looked at or the rest of the state covers the command. -/
theorem resolveWith_harmless_iff
    (hnot : isCommandAuthorEligible cfg (s.threads id) found.authorLogin = false) :
    let after := (s.resolveWith cfg id labels (some found) posted answer).visible id
    (after = { s.visible id with phase := .idle } ∨
        after = (s.resolveWith cfg id labels none posted answer).visible id) ↔
      s.Done id ∨ s.Covered cfg id labels found.command := by
  rw [resolveWith_refused hnot]
  by_cases hre : (s.resolveIntent cfg id labels (some found)).1.reopens
  · rw [if_pos hre]
    refine iff_of_true (.inl ?_) (.inr ?_)
    · show ({ (s.setThread id _).visible id with phase := .idle } : Visible) = _
      rw [visible_setThread]
      unfold Thread.rejectUnauthorizedCommand Thread.advance
      cases posted <;> split <;> rfl
    · cases hco : found.command with
      | retry | followup => trivial
      | rebase =>
        rw [(resolveIntent_rebase hco).1] at hre
        split at hre <;> cases hre
      | unblock =>
        rw [(resolveIntent_unblock hco).1] at hre
        exact .inr (.inr hre)
  · rw [if_neg hre]
    rw [Bool.not_eq_true] at hre
    by_cases hdo : s.Done id
    · rw [if_pos hdo]
      exact iff_of_true (.inl rfl) (.inl hdo)
    rw [if_neg hdo, or_iff_right hdo]
    cases hco : found.command with
    | retry | followup =>
      refine iff_of_true (.inr ?_) trivial
      have hou := resolveIntent_outbid (by rw [hco]; rfl) hre
      rw [visible_honour_dispatch hre (by rw [hco]; decide), hou]
      rw [hou] at hre
      exact (visible_resolveWith_none hdo hre).symm
    | rebase =>
      obtain ⟨hintent, hbn, hrn, hcm⟩ := resolveIntent_rebase hco
      by_cases hbl : s.baseIntent cfg id labels = .blocked
      · refine iff_of_true (.inr ?_) (.inl hbl)
        rw [visible_honour_dispatch hre (by rw [hco]; decide), hintent, if_pos hbl, hbn hbl,
          visible_resolveWith_none hdo (by rw [hbl]; rfl), hbl]
      · rw [hintent, if_neg hbl]
        by_cases hrb : s.baseIntent cfg id labels = .rebase
        · refine iff_of_true (.inr ?_) (.inr (.inl hrb))
          rw [visible_honour_dispatch rfl (by rw [hco]; decide),
            visible_resolveWith_none hdo (by rw [hrb]; rfl), hrb, hrn hrb]
        · rw [hcm hbl hrb]
          refine (rebase_harmless_iff hco hbl hrb).trans ?_
          simp [Covered, hbl, hrb]
    | unblock =>
      obtain ⟨hintent, hor⟩ := resolveIntent_unblock hco
      rw [hintent] at hre ⊢
      exact unblock_harmless_iff hco hdo hre hor

end Parts

theorem harmless_iff_tolerated (hro : cfg.allowAnyoneToRetry = false) (s : Host) (input : Input)
    (hbot : s.NotTheDaemon cfg input) : s.Harmless cfg input ↔ s.Tolerated cfg input := by
  cases input with
  | resolve labels posted answer =>
    unfold Harmless Tolerated
    rcases hfo : s.foreign cfg with _ | pair
    · exact .rfl
    obtain ⟨id, found⟩ := pair
    have hau : found.authorLogin ≠ some "orchestratord" := by
      simpa [NotTheDaemon, hfo] using hbot
    obtain ⟨source, hph, hfe, hnot⟩ : ∃ source, s.daemon.phase = .launching source id .resolve ∧
        fetchIssueCommandIntent cfg (s.threads id) = some found ∧
        byAuthor (s.threads id) found = false := by
      unfold foreign at hfo
      split at hfo
      case h_1 source _ hph =>
        obtain ⟨c, hc, heq⟩ := map_eq_some_iff.mp hfo
        obtain ⟨rfl, rfl⟩ := Prod.mk.inj heq
        obtain ⟨hfe, hnot⟩ := filter_eq_some_iff.mp hc
        exact ⟨source, hph, hfe, by simpa using hnot⟩
      · cases hfo
    have hst : s.step cfg (.resolve labels posted answer) =
        s.resolveWith cfg id labels (some found) posted answer := by
      show s.resolve cfg labels posted answer = _
      unfold resolve
      rw [hph]
      dsimp only
      rw [hfe]
    rw [hst]
    apply resolveWith_harmless_iff
    rwa [eligible_eq_byAuthor hro _ hau]
  | comment => exact iff_of_true (visible_setThread rfl) trivial
  | candidate | rebaseConflict | rebaseState | other => exact .rfl

/-- With the role check on, in every run in which nobody writes commands under the daemon's
own login, the commands of people other than the author are without effect exactly when
each of them is covered by the state it is looked at in. -/
theorem comment_commands_authorised (hrole : cfg.allowAnyoneToRetry = false) (s : Host)
    (inputs : List Input) (hbot : Guarded (step cfg) (NotTheDaemon cfg) s inputs) :
    Guarded (step cfg) (Harmless cfg) s inputs ↔ Guarded (step cfg) (Tolerated cfg) s inputs :=
  hbot.congr fun s input => harmless_iff_tolerated cfg hrole s input

/-- A host that knows issue 7 with a pull request and the given status. -/
def knowing (status : IssueStatus) : Host where
  daemon := .startup {} 0 (empty.set "7" { status, prNumber := some 1 }) []
  threads := fun _ => {}

/-- Somebody else writes the command, and the poll looks at the issue, whose author is
recorded. -/
def commanded (body : String) : List Input :=
  [.comment "7" ⟨"c1", body, some "mallory"⟩, .candidate "7" (some "alice")]

theorem comment_commands_authorised_retry :
    let inputs := commanded "/agent retry" ++ [.resolve [] (some "c2") .unavailable]
    (runFrom (step {}) (knowing .failed) (commanded "/agent retry")).foreign {} =
        some ("7", ⟨.retry, some "mallory", "c1"⟩) ∧
      Guarded (step {}) (NotTheDaemon {}) (knowing .failed) inputs ∧
      Guarded (step {}) (Tolerated {}) (knowing .failed) inputs ∧
      Guarded (step {}) (Harmless {}) (knowing .failed) inputs := by
  intro inputs
  have hbot : Guarded (step {}) (NotTheDaemon {}) (knowing .failed) inputs := by decide +kernel
  have hto : Guarded (step {}) (Tolerated {}) (knowing .failed) inputs := by
    decide +kernel
  exact ⟨by decide +kernel, hbot, hto,
    (comment_commands_authorised {} rfl (knowing .failed) inputs hbot).mpr hto⟩

/-- Anybody can have a branch rebased and pushed, and anybody can reopen an abandoned
issue. -/
theorem foreign_commands_obeyed :
    (let s := runFrom (step {}) (knowing .failed) (commanded "/agent rebase")
      let after := s.step {} (.resolve [] (some "c2") (.result false true))
      (s.visible "7").record.map Face.intent = some .none ∧
        (after.visible "7").record.map Face.intent = some .rebase ∧
        (after.visible "7").rebaseAttemptCount = 1 ∧ after.rebases = ["7"] ∧
        ¬ s.Harmless {} (.resolve [] (some "c2") (.result false true))) ∧
    (let s := runFrom (step {}) (knowing .abandoned) (commanded "/agent unblock")
      let after := s.step {} (.resolve [] (some "c2") .unavailable)
      (s.visible "7").record.map Face.status = some .abandoned ∧
        (after.visible "7").record.map Face.status = some .pending ∧
        ¬ s.Harmless {} (.resolve [] (some "c2") .unavailable)) := by
  decide +kernel

end Host

end Orchestratord.Commands
