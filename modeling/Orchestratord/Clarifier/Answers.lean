import Orchestratord.Clarifier.Gate

/-! # Answers

An accepted answer should stay in the queue or in the replies of the record until the issue is
dispatched with it, and an issue should not wait for an answer that was given. -/

namespace Orchestratord.Clarifier

open Foundation
open Issues (IssueId Time Registry IssueRecord Registration truthy)
open Dict Event ClarificationQueue Option

/-! ## §1 The property -/

variable (id : IssueId) (answer : String)

def Event.gives : Event → Bool
  | .accepted id' text => id' = id ∧ Text.strip text = answer ∧ answer ≠ ""
  | .asked _ | .dispatched _ _ => false

def Event.uses : Event → Bool
  | .dispatched id' text => id' = id ∧ text = some answer
  | .accepted _ _ | .asked _ => false

/-- The answer was accepted, and the issue has not been dispatched with it since. -/
def isPending (log : List Event) : Bool := latched (gives id answer) (uses id answer) log

def Event.answers : Event → Bool
  | .accepted id' _ => id' = id
  | .asked _ | .dispatched _ _ => false

def Event.reopens : Event → Bool
  | .asked id' | .dispatched id' _ => id' = id
  | .accepted _ _ => false

/-- The last question of the issue is answered. -/
def isAnswered (log : List Event) : Bool := latched (answers id) (reopens id) log

/-- What the property reads of a record. -/
structure Face where
  status : Option String
  replies : List String

def faceOf (record : IssueRecord) : Face :=
  ⟨record.clarification.status, record.clarification.replies⟩

def face (r : Registry) (id : IssueId) : Option Face := (r.get id).map faceOf

namespace Host

variable (s : Host) (id : IssueId) (answer : String)

def InQueue : Prop :=
  ∃ item, s.queue.getResolved id = some item ∧ Text.strip (item.answer.getD "") = answer

def Stored : Prop := ∃ f, face s.registry id = some f ∧ answer ∈ f.replies

/-- The gate holds the issue until the queue has an answer, and it has none. -/
def Stuck : Prop :=
  (∃ f, face s.registry id = some f ∧ f.status = some "awaiting_author") ∧
    s.queue.getResolved id = none

instance : Decidable (s.InQueue id answer) := by
  unfold InQueue
  infer_instance

instance : Decidable (s.Stored id answer) := by
  unfold Stored
  infer_instance

instance : Decidable (s.Stuck id) :=
  decidable_of_iff ((∃ f ∈ face s.registry id, f.status = some "awaiting_author") ∧
    (s.queue.getResolved id).isNone) (and_congr Iff.rfl isNone_iff_eq_none)

structure NothingLost : Prop where
  kept : ∀ id answer, isPending id answer s.log → s.InQueue id answer ∨ s.Stored id answer
  unblocked : ∀ id, isAnswered id s.log → ¬ s.Stuck id

end Host

/-! ## §2 What the operations of the registry do to it -/

variable {id id' : IssueId} {now : Time} {record : IssueRecord}

section Registry

variable {r : Registry} {f : IssueRecord → IssueRecord}

theorem face_edit_ne (h : id' ≠ id) : face (r.edit id now f) id' = face r id' :=
  congrArg (Option.map faceOf) (get_modify_ne _ _ h)

theorem face_edit_self
    (h : r.get id = some record) : face (r.edit id now f) id = some (faceOf (f record)) := by
  unfold face Issues.Registry.edit
  rw [get_modify_self, h]
  rfl

/-- An edit of other fields. -/
theorem face_edit_same (h : ∀ record, faceOf (f record) = faceOf record) (id' : IssueId) :
    face (r.edit id now f) id' = face r id' := by
  by_cases hid : id' = id
  · subst hid
    cases hget : r.get id' with
    | none => simp [face, Issues.Registry.edit, hget]
    | some =>
      rw [face_edit_self hget, h, face, hget]
      rfl
  · exact face_edit_ne hid

/-- A registration keeps what is there; a new record has no replies and waits for nothing. -/
theorem face_register (r : Registry) (now : Time) (args : Registration) (fresh : String)
    (id' : IssueId) : face (r.register args fresh now) id' = face r id' ∨
      face r id' = none ∧ face (r.register args fresh now) id' = some ⟨none, []⟩ := by
  unfold face Issues.Registry.register
  by_cases hid : id' = args.issueId
  · subst hid
    split
    case h_1 hno =>
      right
      rw [hno, get_set_self]
      exact ⟨rfl, rfl⟩
    case h_2 _ hso =>
      left
      rw [hso, get_set_self]
      rfl
  · left
    split
    all_goals rw [get_set_ne _ _ hid]

end Registry

/-! ## §3 What a look of the resolver does -/

variable {item : ClarificationItem}

namespace ClarificationQueue

variable {cfg : ResolverConfig} {q : ClarificationQueue} {f : ClarificationItem → ClarificationItem}

theorem get_edit_ne (h : id' ≠ id) : (q.edit id now f).get id' = q.get id' := get_modify_ne _ _ h

theorem get_edit_self :
    (q.edit id now f).get id = (q.get id).map fun item => { f item with updatedAt := now } :=
  get_modify_self _ _ _

variable {q' : ClarificationQueue}

theorem getResolved_of_get (h : q'.get id = q.get id) : q'.getResolved id = q.getResolved id := by
  unfold getResolved
  rw [h]

theorem isResolved_resolvedStatus {status : ClarificationStatus} (h : status.isActive)
    (source : AnswerSource) : (resolvedStatus source status).isResolved := by
  cases status with
  | pending | awaitingLocal =>
    cases source with
    | _ => rfl
  | awaitingAuthor => rfl
  | _ => cases h

/-- An answer to an active item is there to be taken. -/
theorem getResolved_resolve (hget : q.get id = some item) (hac : item.status.isActive)
    (answer : String) (source : AnswerSource) (now : Time) :
    ((q.resolve id answer source now).getResolved id).map (·.answer) = some (some answer) := by
  unfold getResolved resolve
  rw [get_edit_self, hget]
  simp [isResolved_resolvedStatus hac]

/-- The queue has no answer to an item that is active. -/
theorem getResolved_of_isActive (hget : q.get id = some item) (hac : item.status.isActive) :
    q.getResolved id = none := by
  simp [getResolved, hget, ClarificationStatus.isResolved_of_isActive hac]

theorem queueCandidate_eq_none (hget : q.get id = some item) (hac : item.status.isActive)
    (now : Time) : queueCandidate q id item now = none := by
  unfold queueCandidate
  split
  · rw [getResolved_of_isActive hget hac, bind_none]
  · rfl

/-- Nothing becomes resolved, and the other items stay. -/
structure Quiet (id : IssueId) (q q' : ClarificationQueue) : Prop where
  others : ∀ id', id' ≠ id → q'.get id' = q.get id'
  unresolved : q.getResolved id = none → q'.getResolved id = none

theorem Quiet.trans {q'' : ClarificationQueue} (h : Quiet id q q') (h' : Quiet id q' q'') :
    Quiet id q q'' :=
  ⟨fun id' hid => (h'.others id' hid).trans (h.others id' hid),
    fun hno => h'.unresolved (h.unresolved hno)⟩

theorem quiet_edit (q : ClarificationQueue) (now : Time)
    (h : ∀ item, item.status.isResolved = false → (f item).status.isResolved = false) :
    Quiet id q (q.edit id now f) := by
  refine ⟨fun id' hid => get_edit_ne hid, fun hno => ?_⟩
  unfold getResolved at hno ⊢
  rw [get_edit_self]
  cases hget : q.get id with
  | none => rfl
  | some item =>
    have hst : item.status.isResolved = false := by simpa [hget] using hno
    simp [h item hst]

theorem quiet_markExpired (now : Time) : Quiet id q (q.markExpired id now) := by
  apply quiet_edit
  intro item _
  cases item.status with
  | _ => rfl

theorem quiet_sendAuthorMention {mention : Mention}
    (h : sendAuthorMention q id mention now = some q') : Quiet id q q' := by
  unfold sendAuthorMention at h
  split at h
  · split at h
    · cases h
      exact ⟨fun _ _ => rfl, fun hno => hno⟩
    · cases h
      exact quiet_edit q now fun _ hst => hst
  · cases h

theorem quiet_handleTimeout (look : Look) : Quiet id q (handleTimeout cfg q id item look) := by
  unfold handleTimeout
  split
  · have hes : Quiet id q ((q.markExpired id look.now).markAwaitingAuthor id
        (some cfg.timeoutAuthor) look.now) :=
      (quiet_markExpired look.now).trans (quiet_edit _ look.now fun _ _ => rfl)
    refine hes.trans (.trans ?_ (quiet_edit _ look.now fun _ hst => hst))
    cases hse : sendAuthorMention ((q.markExpired id look.now).markAwaitingAuthor id
        (some cfg.timeoutAuthor) look.now) id look.mention look.now with
    | none => exact quiet_markExpired look.now
    | some => exact quiet_sendAuthorMention hse
  · exact (quiet_markExpired look.now).trans (quiet_edit _ look.now fun _ _ => rfl)
  · exact ⟨fun _ _ => rfl, fun hno => hno⟩

/-- What a look at an active item leaves: the other items, and an answer exactly if one was
accepted. -/
structure Looked (id : IssueId) (q after : ClarificationQueue) (accepted : Option String) :
    Prop where
  others : ∀ id', id' ≠ id → after.get id' = q.get id'
  answer : (after.getResolved id).map (·.answer) = accepted.map some

/-- The item stays active, and there is at most one candidate: the queue has no answer to an
active item, so all that counts is the author's comment. -/
theorem collectCandidates_spec (cfg : ResolverConfig) (hget : q.get id = some item)
    (hac : item.status.isActive) (look : Look) :
    (∀ id', id' ≠ id → (collectCandidates cfg q id item look).1.get id' = q.get id') ∧
      (∃ item', (collectCandidates cfg q id item look).1.get id = some item' ∧
        item'.status.isActive) ∧ (collectCandidates cfg q id item look).2.length ≤ 1 := by
  unfold collectCandidates
  rw [queueCandidate_eq_none hget hac]
  split
  · split
    · exact ⟨fun _ _ => rfl, ⟨item, hget, hac⟩, Nat.zero_le 1⟩
    refine ⟨fun id' hid => get_edit_ne hid, ?_, ?_⟩
    · unfold markCommentChecked
      rw [get_edit_self, hget]
      exact ⟨_, rfl, hac⟩
    cases authorCandidate cfg id item look.comments with
    | none => exact Nat.zero_le 1
    | some => exact le_refl 1
  · exact ⟨fun _ _ => rfl, ⟨item, hget, hac⟩, Nat.zero_le 1⟩

theorem looked_checkForAnswer (hget : q.get id = some item) (hac : item.status.isActive)
    (look : Look) :
    Looked id q (checkForAnswer cfg q id item look).1 (checkForAnswer cfg q id item look).2 := by
  have hno := getResolved_of_isActive hget hac
  unfold checkForAnswer
  split
  · have hqu : Quiet id q (handleTimeout cfg q id item look) := quiet_handleTimeout look
    exact ⟨hqu.others, by rw [hqu.unresolved hno]; rfl⟩
  obtain ⟨hot, ⟨_, hget', hac'⟩, hone⟩ := collectCandidates_spec cfg hget hac look
  dsimp only
  split
  · exact ⟨hot, by rw [getResolved_of_isActive hget' hac']; rfl⟩
  · exact ⟨fun id' hid => (get_edit_ne hid).trans (hot id' hid),
      getResolved_resolve hget' hac' _ _ _⟩
  case h_3 hca =>
    rw [hca] at hone
    simp at hone

theorem quiet_enqueue (q : ClarificationQueue) (r : Request) (timeout now : Time) :
    Quiet r.issueId q (q.enqueue r timeout now) := by
  refine ⟨fun id' hid => get_set_ne _ _ hid, fun _ => ?_⟩
  unfold getResolved enqueue
  rw [get_set_self]
  rfl

/-- A question for an issue without one: it is open, or the author could not be asked. -/
theorem requestClarification_spec {r : Request} (hget : q.get r.issueId = none) (first : Bool)
    (mention : Mention) (now : Time) {after : ClarificationQueue} {delivered : Bool}
    (h : requestClarification cfg q r first mention now = (after, delivered)) :
    (∀ id', id' ≠ r.issueId → after.get id' = q.get id') ∧
      (delivered = true ∧ after.getResolved r.issueId = none ∨
        delivered = false ∧ after.get r.issueId = none ∧ first = true ∧ mention = .fails) := by
  have hno : q.getResolved r.issueId = none := by simp [getResolved, hget]
  unfold requestClarification at h
  rw [hget] at h
  dsimp only at h
  split at h
  case isTrue hfi =>
    have hop : Quiet r.issueId q ((q.enqueue r cfg.timeoutAuthor now).markAwaitingAuthor r.issueId
        (some cfg.timeoutAuthor) now) :=
      (quiet_enqueue q r cfg.timeoutAuthor now).trans (quiet_edit _ now fun _ _ => rfl)
    split at h
    case h_1 _ hse =>
      cases h
      have hqu := hop.trans (quiet_sendAuthorMention hse)
      exact ⟨hqu.others, .inl ⟨rfl, hqu.unresolved hno⟩⟩
    rename_i hse
    cases h
    refine ⟨fun id' hid => (get_erase_ne _ hid).trans (hop.others id' hid),
      .inr ⟨rfl, get_erase_self _ _, hfi, ?_⟩⟩
    cases mention with
    | fails => rfl
    | posted =>
      dsimp only [sendAuthorMention] at hse
      split at hse
      all_goals cases hse
  · cases h
    have hqu : Quiet r.issueId q ((q.enqueue r cfg.timeoutLocal now).markAwaitingLocal r.issueId now) :=
      (quiet_enqueue q r cfg.timeoutLocal now).trans (quiet_edit _ now fun _ _ => rfl)
    exact ⟨hqu.others, .inl ⟨rfl, hqu.unresolved hno⟩⟩

theorem looked_resolve (hget : q.get id = some item) (hac : item.status.isActive)
    (answer : String) (source : AnswerSource) (now : Time) :
    Looked id q (q.resolve id answer source now) (some answer) :=
  ⟨fun _ hid => get_edit_ne hid, getResolved_resolve hget hac answer source now⟩

end ClarificationQueue

/-! ## §4 Steps outside the gate -/

namespace Host

variable {cfg : ClarifierConfig} {s s' : Host} {answer : String}

theorem InQueue.congr (h : s.InQueue id answer) (hqu : s'.queue.get id = s.queue.get id) :
    s'.InQueue id answer := by
  obtain ⟨item, him, han⟩ := h
  exact ⟨item, (getResolved_of_get hqu).trans him, han⟩

theorem not_inQueue (hno : s.queue.getResolved id = none) : ¬ s.InQueue id answer := by
  rintro ⟨_, him, -⟩
  rw [hno] at him
  cases him

theorem Stored.congr (h : s.Stored id answer) (hfa : face s'.registry id = face s.registry id) :
    s'.Stored id answer := by
  obtain ⟨f, hf, hmem⟩ := h
  exact ⟨f, hfa.trans hf, hmem⟩

theorem Stuck.congr (h : s'.Stuck id) (hfa : face s'.registry id = face s.registry id)
    (hqu : s'.queue.getResolved id = s.queue.getResolved id) : s.Stuck id := by
  obtain ⟨⟨f, hf, hst⟩, hno⟩ := h
  exact ⟨⟨f, hfa.symm.trans hf, hst⟩, hqu.symm.trans hno⟩

variable (h : s.NothingLost)

include h

/-- A look at an item without an answer, or an answer to it. -/
theorem NothingLost.looked {queue : ClarificationQueue}
    {accepted : Option String} (hno : s.queue.getResolved id = none)
    (hlo : ClarificationQueue.Looked id s.queue queue accepted) :
    NothingLost { s with queue, log := s.log ++ accepted.toList.map (.accepted id) } := by
  obtain ⟨hot, har⟩ := hlo
  -- an answer that was pending before is not in the queue for this issue
  have hbe : ∀ id' answer, isPending id' answer s.log →
      InQueue { s with queue } id' answer ∨ Stored { s with queue } id' answer := by
    intro id' answer hpe
    rcases h.kept id' answer hpe with hqu | hsd
    · have hid : id' ≠ id := by
        rintro rfl
        exact not_inQueue hno hqu
      exact .inl (hqu.congr (hot id' hid))
    · exact .inr hsd
  have hst : ∀ id', isAnswered id' s.log → queue.getResolved id' = s.queue.getResolved id' →
      ¬ Stuck { s with queue } id' :=
    fun id' han hqu hst => h.unblocked id' han (hst.congr rfl hqu)
  cases accepted with
  | none =>
    have hgo : queue.getResolved id = none := by simpa using har
    refine ⟨?_, ?_⟩
    · intro id' answer hpe
      exact hbe id' answer (by simpa using hpe)
    intro id' han
    apply hst id' (by simpa using han)
    by_cases hid : id' = id
    · rw [hid, hgo, hno]
    · exact getResolved_of_get (hot id' hid)
  | some text =>
    obtain ⟨item, him, hte⟩ := map_eq_some_iff.mp har
    refine ⟨?_, ?_⟩
    · intro id' answer hpe
      rcases (latched_concat s.log _).mp hpe with hgi | ⟨hon, -⟩
      · obtain ⟨rfl, rfl, -⟩ : id = id' ∧ Text.strip text = answer ∧ answer ≠ "" := by
          simpa [gives] using hgi
        exact .inl ⟨item, him, by rw [hte]; rfl⟩
      · exact hbe id' answer hon
    · intro id' han
      by_cases hid : id' = id
      · rintro ⟨-, hgo⟩
        subst hid
        exact some_ne_none item (him.symm.trans hgo)
      · rcases (latched_concat s.log _).mp han with hnow | ⟨hon, -⟩
        · exact absurd (by simpa [answers] using hnow : id = id').symm hid
        · exact hst id' hon (getResolved_of_get (hot id' hid))

theorem NothingLost.check (look : ClarificationQueue.Look) : (s.check cfg id look).NothingLost := by
  unfold Host.check
  split
  · exact h
  case h_2 _ him =>
    obtain ⟨hget, hac⟩ := filter_eq_some_iff.mp him
    exact h.looked (getResolved_of_isActive hget hac) (looked_checkForAnswer hget hac look)

theorem NothingLost.pollClarificationAnswers (look : IssueId → ClarificationQueue.Look) :
    (s.pollClarificationAnswers cfg look).NothingLost := by
  unfold Host.pollClarificationAnswers
  generalize s.queue.pollActive = ids
  induction ids generalizing s with
  | nil => exact h
  | cons id _ ih => exact ih (h.check (look id))

theorem NothingLost.clarify (now : Time)
    (hac : ∀ item, s.queue.get id = some item → item.status.isActive) :
    (s.clarify id answer now).NothingLost := by
  unfold Host.clarify
  split
  · exact h
  case h_2 item hget =>
    exact h.looked (getResolved_of_isActive hget (hac item hget))
      (looked_resolve hget (hac item hget) answer .clarificationQueue now)

theorem NothingLost.register (args : Registration) (fresh : String)
    (now : Time) : NothingLost { s with registry := s.registry.register args fresh now } := by
  refine ⟨?_, ?_⟩
  · intro id answer hpe
    refine (h.kept id answer hpe).imp_right fun ⟨f, hf, hmem⟩ => ?_
    rcases face_register s.registry now args fresh id with hsa | ⟨hno, -⟩
    · exact ⟨f, hsa.trans hf, hmem⟩
    · rw [hno] at hf
      cases hf
  · rintro id han ⟨⟨f, hf, hst⟩, hno⟩
    rcases face_register s.registry now args fresh id with hsa | ⟨-, hfr⟩
    · exact h.unblocked id han ⟨⟨f, hsa.symm.trans hf, hst⟩, hno⟩
    · obtain rfl := some.inj (hfr.symm.trans hf)
      cases hst

omit h

/-! ## §5 What a call of the gate does -/

/-- The result of an analysis leads to a new question. -/
def asks (cfg : ClarifierConfig) (issue : Issue) (round : Int) (result : ClarifyResult) : Bool :=
  ! result.isClear && result.questions ≠ [] && cfg.blockOnUnclear && round < cfg.maxRounds &&
    (! cfg.authorFirst || (truthy issue.authorLogin).isSome)

def Mentioned (cfg : ClarifierConfig) (o : Outside) : Prop := cfg.authorFirst → o.mention ≠ .fails

/-- The analysis comes to a result with which the replies are stored: the issue is clear, or
unclear issues are not blocked, or a new question can be asked and is delivered. -/
def Settles (cfg : ClarifierConfig) (issue : Issue) (round : Int) (o : Outside) : Prop :=
  ∃ result, o.analysis = some result ∧
    (result.isClear ∨ result.questions ≠ [] ∧ cfg.blockOnUnclear = false ∨
      asks cfg issue round result ∧ Mentioned cfg o)

instance (cfg : ClarifierConfig) (o : Outside) : Decidable (Mentioned cfg o) :=
  inferInstanceAs (Decidable (_ → _))

instance (cfg : ClarifierConfig) (issue : Issue) (round : Int) (o : Outside) :
    Decidable (Settles cfg issue round o) := by
  unfold Settles
  infer_instance

/-- What the result of an analysis does to the issue. -/
inductive Effect (cfg : ClarifierConfig) (issue : Issue) (round : Int) (o : Outside)
    (replies : List String) (s s' : Host) : Prop where
  | stored (status : String) (hstatus : status ≠ "awaiting_author")
      (hface : face s'.registry issue.id = some ⟨some status, replies⟩)
      (hqueue : s'.queue.get issue.id = s.queue.get issue.id) (hlog : s'.log = s.log)
  | manual (hface : face s'.registry issue.id
        = (face s.registry issue.id).map fun f => ⟨some "manual_required", f.replies⟩)
      (hqueue : s'.queue.get issue.id = s.queue.get issue.id) (hlog : s'.log = s.log)
      (hnot : ¬ Settles cfg issue round o)
  | asked (hface : face s'.registry issue.id = some ⟨some "awaiting_author", replies⟩)
      (hlog : s'.log = s.log ++ [.asked issue.id])
      (hasks : ∃ result, o.analysis = some result ∧ asks cfg issue round result)
  | undelivered (hface : face s'.registry issue.id = face s.registry issue.id)
      (hlog : s'.log = s.log)
      (hasks : ∃ result, o.analysis = some result ∧ asks cfg issue round result)
      (hnot : ¬ Settles cfg issue round o)

/-- Nothing happens to the other issues. -/
structure Only (id : IssueId) (s s' : Host) : Prop where
  face : ∀ id', id' ≠ id → face s'.registry id' = face s.registry id'
  queue : ∀ id', id' ≠ id → s'.queue.get id' = s.queue.get id'

variable {issue : Issue} {result : ClarifyResult} {replies : List String} {o : Outside}
  {round : Int}

section Effect

theorem asks_iff : asks cfg issue round result ↔
    result.isClear = false ∧ result.questions ≠ [] ∧ cfg.blockOnUnclear ∧ round < cfg.maxRounds ∧
      (cfg.authorFirst → (truthy issue.authorLogin).isSome) := by
  cases hfi : cfg.authorFirst with
  | true | false => simp [asks, hfi, and_assoc]

theorem not_settles_of_fails (han : o.analysis = some result)
    (has : asks cfg issue round result) (hfi : cfg.authorFirst) (hfa : o.mention = .fails) :
    ¬ Settles cfg issue round o := by
  obtain ⟨hun, -, hbl, -⟩ := asks_iff.mp has
  rintro ⟨_, han', hse⟩
  obtain rfl := some.inj (han.symm.trans han')
  rcases hse with hcl | ⟨-, hpa⟩ | ⟨-, hme⟩
  · rw [hun] at hcl
    cases hcl
  · rw [hbl] at hpa
    cases hpa
  · exact hme hfi hfa

theorem ask_effect (hget : s.registry.get issue.id = some record) (han : o.analysis = some result)
    (has : asks cfg issue record.clarification.round result) :
    Only issue.id s (s.ask cfg issue record result replies o).1 ∧
      Effect cfg issue record.clarification.round o replies s
        (s.ask cfg issue record result replies o).1 := by
  obtain ⟨after, delivered, hre⟩ : ∃ after delivered,
      (s.queue.remove issue.id).requestClarification cfg.resolver (s.request issue record result)
        cfg.authorFirst o.mention o.now = (after, delivered) := ⟨_, _, rfl⟩
  obtain ⟨hot, hde⟩ := requestClarification_spec (get_erase_self _ _) _ _ _ hre
  have hqu : ∀ id', id' ≠ issue.id → after.get id' = s.queue.get id' := fun id' hid =>
    (hot id' hid).trans (get_erase_ne _ hid)
  dsimp only [ask]
  rw [hre]
  rcases hde with ⟨rfl, -⟩ | ⟨rfl, -, hfi, hfa⟩
  · rw [if_pos rfl]
    refine ⟨⟨fun _ hid => (face_edit_ne hid).trans (face_edit_ne hid), hqu⟩,
      .asked ?_ rfl ⟨result, han, has⟩⟩
    · unfold face Registry.markClarificationBlocked Registry.updateClarification Registry.edit
      rw [get_modify_self, get_modify_self, hget]
      rfl
  · exact ⟨⟨fun _ _ => rfl, hqu⟩, .undelivered rfl rfl ⟨result, han, has⟩
      (not_settles_of_fails han has hfi hfa)⟩

variable (cfg : ClarifierConfig)

theorem applyResult_effect (replies : List String)
    (hget : s.registry.get issue.id = some record) (han : o.analysis = some result) :
    Only issue.id s (s.applyResult cfg issue result replies o).1 ∧
      Effect cfg issue record.clarification.round o replies s
        (s.applyResult cfg issue result replies o).1 := by
  have hfa : face s.registry issue.id = some (faceOf record) := by simp [face, hget]
  -- which of the ways of settling is open to the result
  have hse : Settles cfg issue record.clarification.round o → result.isClear ∨
      result.questions ≠ [] ∧ cfg.blockOnUnclear = false ∨
        asks cfg issue record.clarification.round result := by
    rintro ⟨_, han', h⟩
    obtain rfl := some.inj (han.symm.trans han')
    exact h.imp_right (.imp_right And.left)
  dsimp only [applyResult]
  rw [hget]
  dsimp only
  split
  · refine ⟨⟨fun _ hid => face_edit_ne hid, fun _ _ => rfl⟩,
      .stored (if replies = [] then "clear" else "resolved") ?_ ?_ rfl rfl⟩
    · split
      · decide
      · decide
    · exact face_edit_self hget
  case isFalse hun =>
    split
    case isTrue hem =>
      refine ⟨⟨fun _ hid => face_edit_ne hid, fun _ _ => rfl⟩, .manual ?_ rfl rfl fun hs => ?_⟩
      · exact hfa ▸ face_edit_self hget
      rcases hse hs with h | h | h
      · exact hun h
      · exact h.1 hem
      · exact (asks_iff.mp h).2.1 hem
    case isFalse hqu =>
      split
      · exact ⟨⟨fun _ hid => face_edit_ne hid, fun _ _ => rfl⟩,
          .stored "observation" (by decide) (face_edit_self hget) rfl rfl⟩
      rename_i hbl
      split
      case isTrue hgi =>
        refine ⟨⟨fun _ hid => face_edit_ne hid, fun _ _ => rfl⟩, .manual ?_ rfl rfl fun hs => ?_⟩
        · exact hfa ▸ face_edit_self hget
        rcases hse hs with h | h | h
        · exact hun h
        · exact hbl (by simp [h.2])
        obtain ⟨-, -, -, _, hkn⟩ := asks_iff.mp h
        rcases hgi with hla | ⟨hfi, hunk⟩
        · omega
        · simp [isNone_iff_eq_none.mp hunk] at hkn
          simp [hfi] at hkn
      case isFalse hgo =>
        rw [not_or, Int.not_le, not_and] at hgo
        refine ask_effect hget han (asks_iff.mpr ⟨by simpa using hun, hqu,
          by simpa using hbl, hgo.1, fun hfi => ?_⟩)
        exact isSome_iff_ne_none.mpr (by simpa using hgo.2 hfi)

/-- The call changes only the count of analyses, or a result is applied. -/
theorem weigh_cases (s : Host) (issue : Issue) (status : String)
    (fingerprint : Option String) (replies : List String) (o : Outside) :
    (∃ n, (s.weigh cfg issue status fingerprint replies o).1 = { s with analysesThisPoll := n }) ∨
      ∃ n result, o.analysis = some result ∧ (s.weigh cfg issue status fingerprint replies o).1
        = (applyResult cfg { s with analysesThisPoll := n } issue result replies o).1 := by
  dsimp only [weigh]
  split
  · exact .inl ⟨_, rfl⟩
  split
  · exact .inl ⟨_, rfl⟩
  split
  · exact .inl ⟨_, rfl⟩
  · split
    · exact .inl ⟨_, rfl⟩
    case h_2 result han => exact .inr ⟨_, result, han, rfl⟩

end Effect

/-! ## §6 The gate keeps answers -/

theorem NothingLost.of_only (h : s.NothingLost) (hon : Only id s s')
    (hlog : s'.log = s.log ∨ s'.log = s.log ++ [.asked id])
    (hke : ∀ answer, isPending id answer s.log → s'.InQueue id answer ∨ s'.Stored id answer)
    (hfr : isAnswered id s'.log → ¬ s'.Stuck id) : s'.NothingLost := by
  have hbe : (∀ id' answer, isPending id' answer s'.log → isPending id' answer s.log) ∧
      ∀ id', isAnswered id' s'.log → isAnswered id' s.log := by
    rcases hlog with hsa | has
    · rw [hsa]
      exact ⟨fun _ _ h => h, fun _ h => h⟩
    · rw [has]
      exact ⟨fun _ _ => latched_of_append (by simp [gives]),
        fun _ => latched_of_append (by simp [answers])⟩
  obtain ⟨hpe, han⟩ := hbe
  refine ⟨fun id' answer hnow => ?_, fun id' hnow => ?_⟩
  · by_cases hid : id' = id
    · subst hid
      exact hke answer (hpe id' answer hnow)
    · exact (h.kept id' answer (hpe id' answer hnow)).imp (fun hqu => hqu.congr (hon.queue id' hid))
        (fun hsd => hsd.congr (hon.face id' hid))
  · by_cases hid : id' = id
    · subst hid
      exact hfr hnow
    · intro hst
      exact h.unblocked id' (han id' hnow) (hst.congr (hon.face id' hid)
        (getResolved_of_get (hon.queue id' hid)))

theorem not_isAnswered_asked (id : IssueId) (log : List Event) :
    ¬ isAnswered id (log ++ [.asked id]) := by
  rw [isAnswered, latched_concat]
  simp [answers, reopens]

theorem ne_empty_of_isPending {log : List Event} (h : isPending id answer log) : answer ≠ "" := by
  obtain ⟨e, -, hgi⟩ := exists_sets_of_latched h
  cases e with
  | accepted id' text =>
    have hgi : id' = id ∧ Text.strip text = answer ∧ answer ≠ "" := by
      simpa [gives] using hgi
    exact hgi.2.2
  | asked | dispatched => cases hgi

section Gate

theorem Stored.mem (h : s.Stored issue.id answer) (hget : s.registry.get issue.id = some record) :
    answer ∈ record.clarification.replies := by
  obtain ⟨f, hf, hmem⟩ := h
  have hfa : face s.registry issue.id = some (faceOf record) := by simp [face, hget]
  obtain rfl := some.inj (hfa.symm.trans hf)
  exact hmem

theorem not_stuck {status : String} (hst : status ≠ "awaiting_author")
    (hfa : face s.registry id = some ⟨some status, replies⟩) : ¬ s.Stuck id := by
  rintro ⟨⟨f, hf, haw⟩, -⟩
  obtain rfl := some.inj (hfa.symm.trans hf)
  exact hst (some.inj haw)

/-- A result is applied with the replies that are stored already, and no answer in the queue is
passed over by a new question. -/
theorem NothingLost.applyResult (h : s.NothingLost)
    (hget : s.registry.get issue.id = some record) (hana : o.analysis = some result)
    (hsa : s.queue.getResolved issue.id = none ∨
      asks cfg issue record.clarification.round result = false) :
    (s.applyResult cfg issue result record.clarification.replies o).1.NothingLost := by
  have hfa : face s.registry issue.id = some (faceOf record) := by simp [face, hget]
  have hun : (∃ result, o.analysis = some result ∧
      asks cfg issue record.clarification.round result) → s.queue.getResolved issue.id = none := by
    rintro ⟨_, han', has⟩
    obtain rfl := some.inj (hana.symm.trans han')
    exact hsa.resolve_right (by simp [has])
  obtain ⟨hon, hef⟩ := applyResult_effect cfg record.clarification.replies hget hana
  cases hef with
  | stored _ hst hfa' hqu hlog =>
    refine h.of_only hon (.inl hlog) (fun answer hpe => ?_) fun _ => not_stuck hst hfa'
    exact (h.kept issue.id answer hpe).imp (fun hq => hq.congr hqu)
      fun hsd => ⟨_, hfa', hsd.mem hget⟩
  | manual hfa' hqu hlog =>
    rw [hfa] at hfa'
    refine h.of_only hon (.inl hlog) (fun answer hpe => ?_) fun _ => not_stuck (by decide) hfa'
    exact (h.kept issue.id answer hpe).imp (fun hq => hq.congr hqu)
      fun hsd => ⟨_, hfa', hsd.mem hget⟩
  | asked hfa' hlog has =>
    have hno := hun has
    refine h.of_only hon (.inr hlog) (fun answer hpe => ?_) fun han => ?_
    · have hsd := (h.kept issue.id answer hpe).resolve_left (not_inQueue hno)
      exact .inr ⟨_, hfa', hsd.mem hget⟩
    · rw [hlog] at han
      exact absurd han (not_isAnswered_asked issue.id s.log)
  | undelivered hfa' hlog has =>
    have hno := hun has
    refine h.of_only hon (.inl hlog) (fun answer hpe => ?_) fun han hsk => ?_
    · have hsd := (h.kept issue.id answer hpe).resolve_left (not_inQueue hno)
      exact .inr (hsd.congr hfa')
    · obtain ⟨⟨f, hf, haw⟩, -⟩ := hsk
      exact h.unblocked issue.id (hlog ▸ han) ⟨⟨f, hfa'.symm.trans hf, haw⟩, hno⟩

theorem NothingLost.weigh (h : s.NothingLost) (hget : s.registry.get issue.id = some record)
    (hsa : s.queue.getResolved issue.id = none ∨ ∀ result, o.analysis = some result →
      asks cfg issue record.clarification.round result = false)
    (status : String) (fingerprint : Option String) :
    (s.weigh cfg issue status fingerprint record.clarification.replies o).1.NothingLost := by
  rcases weigh_cases cfg s issue status fingerprint record.clarification.replies o with
    ⟨n, hsm⟩ | ⟨n, result, han, hap⟩
  · rw [hsm]
    exact { h with }
  · rw [hap]
    have hco : NothingLost { s with analysesThisPoll := n } := { h with }
    exact hco.applyResult hget han (hsa.imp_right fun hno => hno result han)

/-- A question that was not answered is retired. -/
theorem NothingLost.retire (h : s.NothingLost) (hno : s.queue.getResolved id = none)
    (now : Time) : (s.retire id now).NothingLost := by
  have hfa : ∀ id', face (s.retire id now).registry id' = face s.registry id' :=
    face_edit_same fun _ => rfl
  have hon : Only id s (s.retire id now) :=
    ⟨fun id' _ => hfa id', fun id' hid => get_erase_ne _ hid⟩
  refine h.of_only hon (.inl rfl) (fun answer hpe => ?_) fun han hst => ?_
  · exact .inr (((h.kept id answer hpe).resolve_left (not_inQueue hno)).congr (hfa id))
  · obtain ⟨⟨f, hf, haw⟩, -⟩ := hst
    exact h.unblocked id han ⟨⟨f, (hfa id).symm.trans hf, haw⟩, hno⟩

/-- Taking the answer changes the cursor of the record. -/
theorem get_take (item : ClarificationItem) (now : Time)
    (hget : s.registry.get issue.id = some record) :
    ∃ record', (s.take issue.id item now).registry.get issue.id = some record' ∧
      record'.clarification.round = record.clarification.round := by
  unfold take
  split
  · exact ⟨record, hget, rfl⟩
  unfold Registry.updateClarification Registry.edit
  rw [get_modify_self, hget]
  exact ⟨_, rfl, rfl⟩

theorem face_take (s : Host) (id : IssueId) (item : ClarificationItem) (now : Time)
    (id' : IssueId) : face (s.take id item now).registry id' = face s.registry id' := by
  unfold take
  split
  · rfl
  · exact face_edit_same (by exact fun _ => rfl) id'

theorem subset_withAnswer (replies : List String) (item : ClarificationItem) :
    replies ⊆ withAnswer replies item := by
  dsimp only [withAnswer]
  split
  · exact List.subset_append_left _ _
  · exact List.Subset.refl _

theorem mem_withAnswer (replies : List String)
    (han : Text.strip (item.answer.getD "") = answer) (hne : answer ≠ "") :
    answer ∈ withAnswer replies item := by
  dsimp only [withAnswer]
  rw [han]
  split
  · exact List.mem_append_right _ List.mem_cons_self
  case isFalse hmem => exact not_not.mp fun hnot => hmem ⟨hne, hnot⟩

/-- An analysis that settles stores its replies; the answers that are pending are among them. -/
theorem NothingLost.settled (h : s.NothingLost) {t : Host}
    (hse : Settles cfg issue round o) (hmem : ∀ answer, isPending issue.id answer s.log →
      answer ∈ replies) (hlog : t.log = s.log) (hon : Only issue.id s s')
    (hef : Effect cfg issue round o replies t s') : s'.NothingLost := by
  cases hef with
  | stored _ hst hfa _ hlog' =>
    refine h.of_only hon (.inl (hlog'.trans hlog)) (fun answer hpe => ?_) fun _ => not_stuck hst hfa
    exact .inr ⟨_, hfa, hmem answer hpe⟩
  | asked hfa hlog' =>
    rw [hlog] at hlog'
    refine h.of_only hon (.inr hlog') (fun answer hpe => ?_) fun han => ?_
    · exact .inr ⟨_, hfa, hmem answer hpe⟩
    · rw [hlog'] at han
      exact absurd han (not_isAnswered_asked issue.id s.log)
  | manual _ _ _ hnot | undelivered _ _ _ hnot => exact absurd hse hnot

/-- The answer is taken, and the analysis with it comes to a result that stores it. -/
theorem NothingLost.taken (h : s.NothingLost) (hget : s.registry.get issue.id = some record)
    (him : s.queue.getResolved issue.id = some item)
    (hle : s.analysesThisPoll < max 1 cfg.maxAnalysesPerPoll)
    (hse : Settles cfg issue record.clarification.round o) (fingerprint : Option String) :
    ((s.take issue.id item o.now).weigh cfg issue "awaiting_author" fingerprint
      (withAnswer record.clarification.replies item) o).1.NothingLost := by
  have ⟨result, han, _⟩ := hse
  obtain ⟨_, hget', hro⟩ := get_take item o.now hget
  have hfa := face_take s issue.id item o.now
  have hqu : ∀ id', id' ≠ issue.id → (s.take issue.id item o.now).queue.get id' = s.queue.get id' :=
    fun id' hid => get_erase_ne _ hid
  have hlog : (s.take issue.id item o.now).log = s.log := rfl
  -- an analysis is left in the poll, so its result is applied
  rw [Host.weigh, han, if_neg (by simp), if_neg (by simp), if_neg (by exact Int.not_le.mpr hle)]
  generalize s.take issue.id item o.now = t at *
  obtain ⟨hon, hef⟩ := applyResult_effect cfg (withAnswer record.clarification.replies item)
    (s := { t with analysesThisPoll := t.analysesThisPoll + 1 }) hget' han
  rw [hro] at hef
  refine h.settled (t := { t with analysesThisPoll := t.analysesThisPoll + 1 }) hse
    (fun answer hpe => ?_) hlog
    ⟨fun id' hid => (hon.face id' hid).trans (hfa id'),
      fun id' hid => (hon.queue id' hid).trans (hqu id' hid)⟩ hef
  rcases h.kept issue.id answer hpe with ⟨held, hhe, har⟩ | hsd
  · obtain rfl := some.inj (him.symm.trans hhe)
    exact mem_withAnswer _ har (ne_empty_of_isPending hpe)
  · exact subset_withAnswer _ _ (hsd.mem hget)

/-- The condition on a step. An operator answers a question that is open. A candidate with an
answer in the queue that the gate takes finds an analysis left in the poll, and the analysis
settles; one whose answer the gate does not take is not asked again. -/
def Careful (cfg : ClarifierConfig) (s : Host) : Input → Prop
  | .clarify id _ _ => ∀ item, s.queue.get id = some item → item.status.isActive
  | .candidate issue o => ∀ record, s.registry.get issue.id = some record →
      ∀ item, s.queue.getResolved issue.id = some item →
      if record.clarification.status = some "awaiting_author" then
        s.analysesThisPoll < max 1 cfg.maxAnalysesPerPoll ∧
          Settles cfg issue record.clarification.round o
      else ∀ result, o.analysis = some result →
        asks cfg issue record.clarification.round result = false
  | .beginPoll | .register _ _ _ | .pollAnswers _ => True

instance (cfg : ClarifierConfig) (s : Host) (i : Input) : Decidable (s.Careful cfg i) := by
  unfold Careful
  split <;> infer_instance

theorem NothingLost.shouldDispatch (h : s.NothingLost) (hok : s.Careful cfg (.candidate issue o)) :
    (s.shouldDispatch cfg issue o).1.NothingLost := by
  dsimp only [Host.shouldDispatch]
  split
  · exact h
  split
  · exact h
  rename_i record hget
  split
  · exact h
  split
  case isTrue haw =>
    have hst : record.clarification.status = some "awaiting_author" := by
      cases hs : record.clarification.status with
      | none => simp [hs] at haw
      | some => simpa [hs] using haw
    rw [haw]
    split
    case h_1 hno =>
      split
      · exact h
      have hre : (s.retire issue.id o.now).registry.get issue.id = some
          { record with
            clarification := { record.clarification with round := 0, openQuestions := [] }
            updatedAt := o.now } := by
        simp [Host.retire, Registry.edit, hget]
      refine (h.retire hno o.now).weigh hre (.inl ?_) _ _
      simp [Host.retire, getResolved, remove]
    case h_2 item him =>
      have hca := hok record hget item him
      rw [if_pos hst] at hca
      exact h.taken hget him hca.1 hca.2 _
  case isFalse hnot =>
    refine h.weigh hget ?_ _ _
    cases him : s.queue.getResolved issue.id with
    | none => exact .inl rfl
    | some item =>
      have hca := hok record hget item him
      rw [if_neg fun hs => hnot (by rw [hs]; rfl)] at hca
      exact .inr hca

end Gate

/-! ## §7 Runs -/

theorem NothingLost.dispatched (h : s.NothingLost) (id : IssueId) :
    (s.dispatched id).NothingLost := by
  refine ⟨fun id' answer hpe => ?_, fun id' han => ?_⟩
  · exact h.kept id' answer (latched_of_append (by simp [gives]) hpe)
  · exact h.unblocked id' (latched_of_append (by simp [answers]) han)

theorem NothingLost.step (h : s.NothingLost) {i : Input} (hok : s.Careful cfg i) :
    (s.step cfg i).NothingLost := by
  cases i with
  | beginPoll => exact { h with }
  | register args fresh now => exact h.register args fresh now
  | pollAnswers look => exact h.pollClarificationAnswers look
  | clarify _ _ now => exact h.clarify now hok
  | candidate issue o =>
    have hga := h.shouldDispatch hok
    show (s.considerCandidate cfg issue o).NothingLost
    unfold considerCandidate
    split
    case h_1 _ hve =>
      rw [hve] at hga
      exact hga.dispatched issue.id
    case h_2 _ hve =>
      rwa [hve] at hga
    case h_3 _ hve =>
      rw [hve] at hga
      split
      · exact hga.dispatched issue.id
      · exact hga

/-- In a run whose steps are all careful every accepted answer stays in the queue or in the
replies until the issue is dispatched with it, and no issue waits for an answer it was given. -/
theorem nothingLost_of_careful (cfg : ClarifierConfig) (inputs : List Input)
    (hrun : Guarded (Host.step cfg) (Careful cfg) {} inputs) (pre : List Input)
    (hpre : pre <+: inputs) : (runFrom (Host.step cfg) {} pre).NothingLost := by
  have hin : NothingLost {} := ⟨nofun, nofun⟩
  exact hrun.throughout (fun _ _ h hok => .step h hok) hin hpre

def oneAnalysis : ClarifierConfig :=
  { maxRounds := 1, maxAnalysesPerPoll := 1,
    fingerprint := fun _ replies => "v" ++ toString replies.length }

def seven : Issue := { id := "7", identifier := some "#7", authorLogin := some "ann" }

def unclear : ClarifyResult :=
  { isClear := false, ambiguities := [{ question := "which colour?" }], fingerprint := "v0" }

/-- The issue is registered and found unclear, and its author answers. -/
def answered : List Input :=
  [.register { issueId := "7", issueIdentifier := "#7" } "c7" 0, .beginPoll,
    .candidate seven { now := 0, analysis := some unclear },
    .pollAnswers fun _ => { now := 1, comments := [⟨"1", some "ann", "blue", 1⟩] }]

/-- The next poll finds it clear. -/
def clearedUp : List Input :=
  answered ++ [.beginPoll,
    .candidate seven { now := 2, analysis := some { isClear := true, fingerprint := "v1" } }]

theorem answer_pending_until_dispatch :
    isPending "7" "blue" (runFrom (Host.step oneAnalysis) {} answered).log ∧
      (runFrom (Host.step oneAnalysis) {} answered).NothingLost ∧
      (runFrom (Host.step oneAnalysis) {} clearedUp).NothingLost := by
  have hca : Guarded (.step oneAnalysis) (Careful oneAnalysis) {} clearedUp := by decide
  exact ⟨by decide, nothingLost_of_careful oneAnalysis clearedUp hca answered ⟨_, rfl⟩,
    nothingLost_of_careful oneAnalysis clearedUp hca clearedUp (List.prefix_refl _)⟩

/-- Another issue uses up the analyses of the poll; -/
def deferred : List Input :=
  answered ++ [.register { issueId := "6", issueIdentifier := "#6" } "c6" 2, .beginPoll,
    .candidate { seven with id := "6" } { now := 2, analysis := some { isClear := true } },
    .candidate seven { now := 2, analysis := none }]

/-- the analysis raises; -/
def failedOpen : List Input :=
  answered ++ [.beginPoll, .candidate seven { now := 2, analysis := none }]

/-- the issue is still unclear, and the rounds are used up. -/
def givenUp : List Input :=
  answered ++ [.beginPoll, .candidate seven { now := 2, analysis := some unclear }]

/-- The answer is lost in each of the three polls. After the first one the gate holds the issue
in every later poll, after the second one it was dispatched without the answer. -/
theorem answers_lost : let after := runFrom (step oneAnalysis) {}
    (∀ inputs ∈ [deferred, failedOpen, givenUp], isPending "7" "blue" (after inputs).log ∧
      ¬ (after inputs).InQueue "7" "blue" ∧ ¬ (after inputs).Stored "7" "blue") ∧
    isAnswered "7" (after deferred).log ∧ (after deferred).Stuck "7" ∧
    ∀ o, (after deferred).shouldDispatch oneAnalysis seven o = (after deferred, .hold) := by
  exact ⟨by decide, by decide, by decide, fun _ => rfl⟩

end Host

end Orchestratord.Clarifier
