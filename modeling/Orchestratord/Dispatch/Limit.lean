import Orchestratord.Dispatch.Candidates

/-! # The limit on concurrent sessions

Each loop of the cycle counts the free slots before it waits, and starts sessions later. The
invariant reserves, in every phase, the slots that the loop at work may still take. Two ways
of starting a session escape the counting: a rebase run enters the running set only when its
background task starts, and the poll does not count a follow-up on command. -/

namespace Orchestratord.Dispatch

open Foundation
open Daemon (IssueId IssueStatus Intent IntentSource Registry RunKind TaskId Session)
open Commands (Command)
open List List.Nodup

/-! ## Reserved slots -/

/-- The part of the state that decides about slots. -/
structure Slots where
  running : Finset IssueId
  sessions : List Session
  rebases : List IssueId
  poll : Loop Issue

variable {s : Slots} {n : Nat}

namespace Slots

variable (cfg : Config)

/-- There is room for `n` more sessions beside those that run and the rebase runs to come. -/
def Room (s : Slots) (n : Nat) : Prop :=
  s.running.card + s.rebases.length + n ≤ cfg.maxConcurrentAgents

theorem Room.mono {cfg : Config} {m : Nat} (h : s.Room cfg n) (hle : m ≤ n) : s.Room cfg m :=
  (Nat.add_le_add_left hle _).trans h

variable (s : Slots)

/-- Every session is in the running set, no issue has two, and the rebase runs to come are of
other issues. -/
structure Tidy : Prop where
  single : (s.sessions.map (·.issueId)).Nodup
  enrolled : ∀ session ∈ s.sessions, session.issueId ∈ s.running
  rebases : s.rebases.Nodup
  apart : ∀ id ∈ s.rebases, id ∉ s.running

/-- The sessions the poll may still start with `n` candidates before it. -/
def pollNeeds (n : Nat) : Nat := min n (s.poll.availableSlots - s.poll.launched)

/-- The slots that a launch and the rest of its loop may take. -/
def needs : Caller → Nat
  | .retry _ => 1
  | .feedback rest => rest.length + 1
  | .poll _ | .followup => s.pollNeeds (s.poll.rest.length + 1)

/-- The slots that the rest of the loop may take once the session is in the running set. -/
def needsLater : Caller → Nat
  | .retry _ => 0
  | .feedback rest => rest.length
  | .poll _ => s.pollNeeds (s.poll.rest.length + 1) - 1
  | .followup => s.pollNeeds s.poll.rest.length

/-- A launch before its session is in the running set. -/
structure InHand (caller : Caller) (id : IssueId) : Prop where
  started : s.rebases = []
  idle : id ∉ s.running
  slot : caller.polls → s.poll.launched < s.poll.availableSlots
  room : s.Room cfg (s.needs caller)

/-- A launch whose session is in the running set and has no task yet. -/
structure Enrolled (caller : Caller) (id : IssueId) : Prop where
  started : s.rebases = []
  running : id ∈ s.running
  fresh : ∀ session ∈ s.sessions, session.issueId ≠ id
  room : s.Room cfg (s.needsLater caller)

/-- The loop over the records with a conflict, before it creates the task for `id`. -/
structure Conflict (id : IssueId) (loop : Loop IssueId) : Prop where
  idle : id ∉ s.running
  others : (id :: loop.rest).Nodup
  apart : ∀ other ∈ id :: loop.rest, other ∉ s.rebases
  slot : loop.launched < loop.availableSlots
  room : s.Room cfg (loop.availableSlots - loop.launched)

end Slots

open Slots

/-- The calls of a review follow-up. -/
def LaunchStage.ofFollowup : LaunchStage → Bool
  | .reviewFeedback | .replies _ _ | .followupWorkspace | .followupHead => true
  | _ => false

/-- The calls before the session is in the running set. -/
def LaunchStage.early : LaunchStage → Bool
  | .exclude _ => false
  | _ => true

/-- What is reserved in a phase. -/
inductive Slots.Reserved (cfg : Config) (s : Slots) : Phase → Prop where
  | resting (h : s.Room cfg 0) : Reserved cfg s .resting
  | fetchingCandidates (h : s.Room cfg 0) : Reserved cfg s .fetchingCandidates
  | stopped (h : s.Room cfg 0) : Reserved cfg s .stopped
  | fetchingRetry {id rest} (h : s.InHand cfg (.retry rest) id) :
      Reserved cfg s (.fetchingRetry id rest)
  | collecting {slots} (hstarted : s.rebases = []) (h : s.Room cfg slots) :
      Reserved cfg s (.collecting slots)
  | fetchingConflict {id loop} (h : s.Conflict cfg id loop) :
      Reserved cfg s (.fetchingConflict id loop)
  | conflictWorkspace {id loop} (h : s.Conflict cfg id loop) :
      Reserved cfg s (.conflictWorkspace id loop)
  | considering {issue stage} (h : s.InHand cfg .followup issue.id) :
      Reserved cfg s (.considering issue stage)
  | inHand {caller issue stage} (h : s.InHand cfg caller issue.id) (hearly : stage.early)
      (hstage : caller = .followup → stage.ofFollowup) :
      Reserved cfg s (.launching caller issue stage)
  | enrolled {caller issue runKind} (h : s.Enrolled cfg caller issue.id) :
      Reserved cfg s (.launching caller issue (.exclude runKind))

variable {loop : Loop IssueId} {d : Host} {caller : Caller} {id : IssueId}

namespace Host

variable {cfg : Config} {issue : Issue}

def slots (d : Host) : Slots := ⟨d.running, d.sessions, d.rebases, d.poll⟩

structure Fits (cfg : Config) (d : Host) : Prop where
  tidy : d.slots.Tidy
  reserved : d.slots.Reserved cfg d.phase

/-- At most as many sessions as allowed, and no two of one issue. -/
@[mk_iff]
structure Limited (cfg : Config) (d : Host) : Prop where
  bound : d.sessions.length ≤ cfg.maxConcurrentAgents
  single : (d.sessions.map (·.issueId)).Nodup

theorem Fits.room (h : Fits cfg d) : d.slots.Room cfg 0 := by
  obtain ⟨-, h⟩ := h
  generalize d.phase = phase at h
  cases h with
  | resting h | fetchingCandidates h | stopped h => exact h
  | collecting _ h => exact h.mono (Nat.zero_le _)
  | fetchingRetry h | considering h | inHand h | fetchingConflict h | conflictWorkspace h =>
    exact h.room.mono (Nat.zero_le _)
  | enrolled h => exact h.room.mono (Nat.zero_le _)

theorem Fits.limited (h : Fits cfg d) : Limited cfg d where
  single := h.tidy.single
  bound := by
    have hsub : (d.sessions.map (·.issueId)).toFinset ⊆ d.running := by
      intro id hid
      obtain ⟨session, hmem, rfl⟩ := mem_map.mp (mem_toFinset.mp hid)
      exact h.tidy.enrolled session hmem
    have hsi : (d.sessions.map (·.issueId)).Nodup := h.tidy.single
    have hro : d.running.card + d.rebases.length + 0 ≤ cfg.maxConcurrentAgents := h.room
    calc
      d.sessions.length = (d.sessions.map (·.issueId)).toFinset.card := by
        rw [toFinset_card_of_nodup hsi, length_map]
      _ ≤ d.running.card := Finset.card_le_card hsub
      _ ≤ cfg.maxConcurrentAgents := by omega

/-! ## The loops -/

variable (htidy : d.slots.Tidy)

include htidy

theorem nextRetry_fits (hst : d.rebases = [])
    (hro : d.slots.Room cfg 0) (ids : List IssueId) : Fits cfg (d.nextRetry cfg ids) := by
  induction ids with
  | nil => exact ⟨htidy, .resting hro⟩
  | cons _ _ ih =>
    unfold nextRetry
    split
    · exact ih
    rename_i hid
    split
    · exact ih
    have hone : d.slots.Room cfg 1 := by
      show d.running.card + d.rebases.length + 1 ≤ cfg.maxConcurrentAgents
      rw [hst, length_nil]
      omega
    exact ⟨htidy, .fetchingRetry ⟨hst, fun h => hid (.inl h), nofun, hone⟩⟩

omit htidy in
theorem not_running_of_not_busy (h : ¬ d.busy id) : id ∉ d.running := by
  intro hru
  exact h (decide_eq_true (.inl hru))

theorem nextFollowup_fits (hst : d.rebases = []) (issues : List Issue)
    (hro : d.slots.Room cfg issues.length) : Fits cfg (d.nextFollowup cfg issues) := by
  induction issues with
  | nil => exact ⟨htidy, .resting hro⟩
  | cons issue _ ih =>
    unfold nextFollowup
    split
    · exact ih (hro.mono (Nat.le_succ _))
    case isFalse hbu =>
      have hid : issue.id ∉ d.running := not_running_of_not_busy fun h => hbu (.inl h)
      exact ⟨htidy, .inHand ⟨hst, hid, nofun, hro⟩ rfl nofun⟩

theorem nextCandidate_fits (hst : d.rebases = []) (issues : List Issue)
    (hro : d.slots.Room cfg (d.slots.pollNeeds issues.length)) :
    Fits cfg (d.nextCandidate issues) := by
  induction issues with
  | nil => exact ⟨{ htidy with }, .resting (hro.mono (Nat.zero_le _))⟩
  | cons _ _ ih =>
    unfold nextCandidate
    split
    · exact ⟨{ htidy with }, .resting (hro.mono (Nat.zero_le _))⟩
    rename_i hsl
    split
    · refine ih (hro.mono ?_)
      unfold pollNeeds
      rw [length_cons]
      omega
    case isFalse hbu =>
      refine ⟨{ htidy with }, .considering ?_⟩
      exact ⟨hst, not_running_of_not_busy hbu, fun _ => Nat.lt_of_not_le hsl, hro⟩

omit htidy in
theorem countRebase_slots (d : Host) (id : IssueId) : (d.countRebase id).slots = d.slots :=
  (congrArg slots (countRebase_beside d id) :)

theorem nextConflict_fits (loop : Loop IssueId) (ids : List IssueId) (hids : ids.Nodup)
    (hap : ∀ id ∈ ids, id ∉ d.rebases)
    (hro : d.slots.Room cfg (loop.availableSlots - loop.launched)) :
    Fits cfg (d.nextConflict cfg loop ids) := by
  induction ids with
  | nil => exact ⟨htidy, .resting (hro.mono (Nat.zero_le _))⟩
  | cons id rest ih =>
    unfold nextConflict
    split
    · exact ⟨htidy, .resting (hro.mono (Nat.zero_le _))⟩
    rename_i hsl
    split
    · exact ih hids.of_cons fun other h => hap other (mem_cons_of_mem id h)
    rename_i hsk
    have hbu : ¬ d.busy id := fun h => hsk (.inr (.inl h))
    have hco : d.slots.Conflict cfg id { loop with rest } :=
      ⟨not_running_of_not_busy hbu, hids, hap, Nat.lt_of_not_le hsl, hro⟩
    rw [← countRebase_slots d id] at htidy hco
    exact ⟨htidy, .fetchingConflict hco⟩

/-! ## Launches -/

variable (h : d.slots.InHand cfg caller issue.id)

include h

/-- A launch that starts no session leaves its slot to the rest of the loop. -/
theorem returned_fits : Fits cfg (d.returned cfg issue caller) := by
  have hpo (n : Nat) : d.slots.pollNeeds n ≤ d.slots.pollNeeds (n + 1) := by
    unfold pollNeeds
    omega
  cases caller with
  | retry rest => exact nextRetry_fits htidy h.started (h.room.mono (Nat.zero_le _)) rest
  | feedback rest => exact nextFollowup_fits htidy h.started rest (h.room.mono (Nat.le_succ _))
  | followup => exact nextCandidate_fits htidy h.started d.poll.rest (h.room.mono (hpo _))
  | poll =>
    have hid : issue.id ∉ d.running := h.idle
    dsimp only [returned]
    rw [if_neg hid]
    exact nextCandidate_fits htidy h.started d.poll.rest (h.room.mono (hpo _))

theorem gated_fits : Fits cfg (d.gated cfg caller issue) := returned_fits htidy h

theorem alreadyHandled_fits : Fits cfg (d.alreadyHandled cfg caller issue) := gated_fits htidy h

variable {stage : LaunchStage}

omit htidy in
/-- The slot a session takes is the one that was reserved for it. For a follow-up on command
none was, unless the poll has more slots than candidates. -/
theorem needsLater_lt_needs
    (hsp : caller = .followup → d.poll.launched + d.poll.rest.length < d.poll.availableSlots) :
    d.slots.needsLater caller < d.slots.needs caller := by
  have hsl : caller.polls → d.poll.launched < d.poll.availableSlots := h.slot
  cases caller with
  | retry => exact Nat.zero_lt_one
  | feedback => exact Nat.lt_succ_self _
  | followup =>
    have hsp := hsp rfl
    simp only [needsLater, needs, pollNeeds, slots]
    omega
  | poll =>
    have hsl := hsl rfl
    simp only [needsLater, needs, pollNeeds, slots]
    omega

theorem enroll_fits
    (hsp : caller = .followup → d.poll.launched + d.poll.rest.length < d.poll.availableSlots)
    (runKind : RunKind) : Fits cfg (d.enroll caller issue runKind) := by
  have hil : issue.id ∉ d.running := h.idle
  have hst : d.rebases = [] := h.started
  refine ⟨⟨htidy.single, ?_, htidy.rebases, ?_⟩, .enrolled ⟨hst, ?_, ?_, ?_⟩⟩
  · intro session hmem
    exact Finset.mem_insert_of_mem (htidy.enrolled session hmem)
  · intro id hid
    rw [show (d.enroll caller issue runKind).slots.rebases = [] from hst] at hid
    cases hid
  · exact Finset.mem_insert_self issue.id d.running
  · intro session hmem heq
    exact hil (heq ▸ htidy.enrolled session hmem)
  · have hlt := needsLater_lt_needs h hsp
    have hro := h.room
    show (insert issue.id d.running).card + d.rebases.length + d.slots.needsLater caller ≤ _
    rw [Finset.card_insert_of_notMem hil]
    change d.running.card + d.rebases.length + d.slots.needs caller ≤ _ at hro
    omega

omit h in
/-- The session gets its task and the caller goes on; the poll counts it. -/
theorem created_fits (h : d.slots.Enrolled cfg caller issue.id) (runKind : RunKind) :
    Fits cfg ((d.createTask issue.id runKind).returned cfg issue caller) := by
  have hru : issue.id ∈ d.running := h.running
  have hfr : issue.id ∉ d.sessions.map (·.issueId) := by
    intro hmem
    obtain ⟨session, hse, heq⟩ := mem_map.mp hmem
    exact h.fresh session hse heq
  have hti' : (d.createTask issue.id runKind).slots.Tidy := by
    refine ⟨?_, ?_, htidy.rebases, htidy.apart⟩
    · show ((d.sessions ++ [_]).map _).Nodup
      rw [map_append]
      exact append htidy.single (nodup_singleton _) (by simpa using hfr)
    · intro session hmem
      rcases mem_append.mp hmem with hold | hnew
      · exact htidy.enrolled session hold
      · rwa [mem_singleton.mp hnew]
  cases caller with
  | retry rest => exact nextRetry_fits hti' h.started h.room rest
  | feedback rest => exact nextFollowup_fits hti' h.started rest h.room
  | followup => exact nextCandidate_fits hti' h.started d.poll.rest h.room
  | poll origin =>
    dsimp only [returned]
    rw [if_pos (show issue.id ∈ (d.createTask issue.id runKind).running from hru)]
    refine nextCandidate_fits (d := (d.createTask issue.id runKind).countLaunch issue.id origin)
      { hti' with } h.started d.poll.rest (h.room.mono ?_)
    simp only [needsLater, pollNeeds, slots, countLaunch, createTask]
    omega

theorem launchFollowup_fits : Fits cfg (d.launchFollowupWithPendingReviews cfg caller issue) := by
  unfold launchFollowupWithPendingReviews
  split
  · exact ⟨htidy, .inHand h rfl fun _ => rfl⟩
  · exact returned_fits htidy h

theorem sendReplies_fits (pending : Bool) (left : Nat) :
    Fits cfg (d.sendReplies cfg caller issue pending left) := by
  cases left with
  | zero =>
    cases pending with
    | true => exact ⟨htidy, .inHand h rfl fun _ => rfl⟩
    | false => exact returned_fits htidy h
  | succ => exact ⟨htidy, .inHand h rfl fun _ => rfl⟩

theorem enter_fits (hca : caller ≠ .followup) : Fits cfg (d.enter cfg caller issue) := by
  unfold enter
  split
  · exact launchFollowup_fits htidy h
  · exact enroll_fits htidy h (absurd · hca) .issue

theorem registryGuard_fits (hca : caller ≠ .followup) :
    Fits cfg (d.registryGuard cfg caller issue) := by
  unfold registryGuard
  split
  · exact alreadyHandled_fits htidy h
  · exact enter_fits htidy h hca

theorem launchIssue_fits (hca : caller ≠ .followup) :
    Fits cfg (d.launchIssue cfg caller issue) := by
  unfold launchIssue prepareIntentReset
  split
  · split
    · split
      · exact ⟨htidy, .inHand h rfl (absurd · hca)⟩
      · exact ⟨htidy, .inHand h rfl (absurd · hca)⟩
    · exact ⟨htidy, .inHand h rfl (absurd · hca)⟩
  · exact gated_fits htidy h

omit h

omit htidy

theorem Fits.inHand (h : Fits cfg d) (hph : d.phase = .launching caller issue stage)
    (hea : stage.early) :
    d.slots.InHand cfg caller issue.id ∧ (caller = .followup → stage.ofFollowup) := by
  have hre := h.reserved
  rw [hph] at hre
  cases hre with
  | inHand hin _ hst => exact ⟨hin, hst⟩
  | enrolled => cases hea

theorem Fits.enrolled {runKind : RunKind} (h : Fits cfg d)
    (hph : d.phase = .launching caller issue (.exclude runKind)) :
    d.slots.Enrolled cfg caller issue.id := by
  have hre := h.reserved
  rw [hph] at hre
  cases hre with
  | inHand _ hea => cases hea
  | enrolled hin => exact hin

/-- `hspare` is the poll's duty towards a follow-up on command. -/
theorem Fits.of_launchStep (h : Fits cfg d) (hph : d.phase = .launching caller issue stage)
    (hsp : caller = .followup → stage = .followupHead →
      d.poll.launched + d.poll.rest.length < d.poll.availableSlots) (reply : Reply) :
    Fits cfg (d.launchStep cfg caller issue stage reply) := by
  have htidy := h.tidy
  unfold launchStep
  split
  case h_1 | h_2 | h_3 | h_8 =>
    obtain ⟨hin, hst⟩ := h.inHand hph rfl
    exact ⟨htidy, .inHand hin rfl hst⟩
  case h_4 answer =>
    obtain ⟨hin, hst⟩ := h.inHand hph rfl
    have hca : caller ≠ .followup := fun hc => nomatch hst hc
    cases answer with
    | missing | inactive => exact gated_fits htidy hin
    | active branch =>
      cases branch with
      | true => exact ⟨htidy, .inHand hin rfl hst⟩
      | false => exact registryGuard_fits htidy hin hca
  · obtain ⟨hin, hst⟩ := h.inHand hph rfl
    have hca : caller ≠ .followup := fun hc => nomatch hst hc
    split
    · exact alreadyHandled_fits htidy hin
    · exact registryGuard_fits htidy hin hca
  case h_6 pending abandoned => exact sendReplies_fits htidy (h.inHand hph rfl).1 pending abandoned
  case h_7 left pending => exact sendReplies_fits htidy (h.inHand hph rfl).1 pending left
  · exact enroll_fits htidy (h.inHand hph rfl).1 (hsp · rfl) .reviewFollowup
  case h_10 runKind => exact created_fits htidy (h.enrolled hph) runKind
  · exact h

theorem Fits.of_stop (h : Fits cfg d) : Fits cfg d.stop := ⟨h.tidy, .stopped h.room⟩

theorem Fits.of_launchRaise (h : Fits cfg d) (hph : d.phase = .launching caller issue stage) :
    Fits cfg (d.launchRaise cfg caller issue stage) := by
  have htidy := h.tidy
  cases stage with
  | closePullRequest =>
    obtain ⟨hin, hst⟩ := h.inHand hph rfl
    exact ⟨htidy, .inHand hin rfl hst⟩
  | workspace | followupWorkspace => exact gated_fits htidy (h.inHand hph rfl).1
  | head | followupHead | exclude => exact h.of_stop
  | refresh | findPullRequest =>
    obtain ⟨hin, hst⟩ := h.inHand hph rfl
    exact enter_fits htidy hin fun hc => nomatch hst hc
  | reviewFeedback => exact returned_fits htidy (h.inHand hph rfl).1
  | replies left pending => exact sendReplies_fits htidy (h.inHand hph rfl).1 pending left

/-! ## Candidates -/

/-- A candidate that gets no session leaves its slot to the rest of the poll. -/
theorem Considered.fits {e : Host} (h : Considered cfg d issue e) (htidy : d.slots.Tidy)
    (hin : d.slots.InHand cfg .followup issue.id) : Fits cfg e := by
  have hsl {e : Host} (he : e.beside = d.beside) : d.slots = e.slots := (congrArg slots he.symm :)
  cases h with
  | waits he =>
    rw [hsl he] at htidy hin
    exact ⟨htidy, .considering hin⟩
  | goesOn he =>
    rw [hsl he] at htidy hin
    have hre := returned_fits htidy hin
    exact hre
  | @launches e he =>
    rw [hsl he] at htidy hin
    exact launchIssue_fits htidy
      { hin with slot := fun _ => hin.slot rfl } nofun
  | followsUp he =>
    rw [hsl he] at htidy hin
    exact launchFollowup_fits htidy hin

/-! ## The cycle's steps -/

/-- A new background task takes one of the slots its loop has counted. -/
theorem createRebase_fits (htidy : d.slots.Tidy)
    (h : d.slots.Conflict cfg id loop) : Fits cfg (d.createRebase cfg id loop) := by
  have hnew : id ∉ d.rebases := h.apart id mem_cons_self
  refine nextConflict_fits (d := { d with rebases := d.rebases ++ [id] })
    ⟨htidy.single, htidy.enrolled, ?_, ?_⟩ _ loop.rest h.others.of_cons ?_ ?_
  · exact append htidy.rebases (nodup_singleton id) (by simpa using hnew)
  · intro other hot
    rcases mem_append.mp hot with hold | hid
    · exact htidy.apart other hold
    · rw [mem_singleton.mp hid]
      exact h.idle
  · intro other hot hmem
    rcases mem_append.mp hmem with hold | hid
    · exact h.apart other (mem_cons_of_mem id hot) hold
    · exact (nodup_cons.mp h.others).1 (mem_singleton.mp hid ▸ hot)
  · have hro : d.running.card + d.rebases.length + (loop.availableSlots - loop.launched) ≤ _ :=
      h.room
    have hsl := h.slot
    show d.running.card + (d.rebases ++ [id]).length +
      (loop.availableSlots - (loop.launched + 1)) ≤ _
    rw [length_append, length_singleton]
    omega

theorem freeSlots_room (h : d.slots.Room cfg 0) (hst : d.rebases = []) :
    d.slots.Room cfg (d.freeSlots cfg) := by
  change d.running.card + d.rebases.length + 0 ≤ _ at h
  show d.running.card + d.rebases.length + (cfg.maxConcurrentAgents - d.running.card) ≤ _
  rw [hst, length_nil] at h ⊢
  omega

theorem dispatchCandidates_fits (htidy : d.slots.Tidy) (h : d.slots.Room cfg 0)
    (hst : d.rebases = []) (issues : List Issue) :
    Fits cfg (d.dispatchCandidates cfg issues) := by
  apply nextCandidate_fits
  · exact { htidy with }
  · exact hst
  · refine (freeSlots_room h hst).mono ?_
    simp only [pollNeeds, slots]
    split <;> omega

/-! ## What the runs have to avoid -/

/-- The next answer puts the session of a follow-up on command into the running set. -/
def startsFollowup (d : Host) : Bool :=
  match d.phase with
  | .launching .followup _ .followupHead => true
  | _ => false

/-- No rebase run still has to start when a loop counts the free slots; and while the poll
starts a follow-up on command it has a slot for every candidate that is left as well. -/
def Counted (d : Host) : Input → Prop
  | .retries _ | .reviewFeedback | .rebaseConflicts => d.phase = .resting → d.rebases = []
  | .answered _ => (d.phase = .fetchingCandidates → d.rebases = []) ∧
      (d.startsFollowup → d.poll.launched + d.poll.rest.length < d.poll.availableSlots)
  | _ => True

instance (d : Host) : ∀ input, Decidable (d.Counted input)
  | .retries _ | .reviewFeedback | .rebaseConflicts => inferInstanceAs (Decidable (_ → _))
  | .answered _ => inferInstanceAs (Decidable (_ ∧ _))
  | .poll | .raised | .rebaseStarts _ | .sessionEnds .. | .settle _ | .command .. => .isTrue trivial

theorem Fits.of_answer (h : Fits cfg d) (reply : Reply) (hco : d.Counted (.answered reply)) :
    Fits cfg (d.answer cfg reply) := by
  have htidy := h.tidy
  have hre := h.reserved
  unfold answer
  split
  case h_1 _ _ _ hph =>
    rw [hph] at hre
    cases hre with
    | fetchingRetry hin => exact launchIssue_fits htidy { hin with slot := nofun } nofun
  case h_2 hph =>
    rw [hph] at hre
    cases hre with
    | fetchingRetry hin => exact nextRetry_fits htidy hin.started h.room _
  case h_3 slots issues hph =>
    rw [hph] at hre
    cases hre with
    | collecting hst hro =>
      exact nextFollowup_fits htidy hst _ (hro.mono (length_take_le slots issues))
  case h_4 hph =>
    rw [hph] at hre
    cases hre with
    | fetchingConflict hin => exact ⟨htidy, .conflictWorkspace hin⟩
  case h_5 hph =>
    rw [hph] at hre
    cases hre with
    | conflictWorkspace hin => exact createRebase_fits htidy hin
  case h_6 issues hph => exact dispatchCandidates_fits htidy h.room (hco.1 hph) issues
  case h_7 hph =>
    rw [hph] at hre
    cases hre with
    | considering hin =>
      rcases considerStep_considered _ _ with hgo | hss
      · exact hgo.fits htidy hin
      · rwa [hss]
  case h_8 _ _ _ hph =>
    refine h.of_launchStep hph ?_ _
    rintro rfl rfl
    apply hco.2
    unfold startsFollowup
    rw [hph]
  · exact h

theorem Fits.of_raise (h : Fits cfg d) : Fits cfg (d.raise cfg) := by
  have htidy := h.tidy
  have hre := h.reserved
  unfold raise
  split
  case h_1 | h_2 => exact h
  case h_3 hph =>
    rw [hph] at hre
    cases hre with
    | fetchingRetry hin => exact nextRetry_fits htidy hin.started h.room _
  case h_4 | h_7 => exact ⟨htidy, .resting h.room⟩
  · exact h.of_stop
  case h_6 hph =>
    rw [hph] at hre
    cases hre with
    | conflictWorkspace hin => exact createRebase_fits htidy hin
  case h_8 _ stage hph =>
    rw [hph] at hre
    cases hre with
    | considering hin =>
      cases stage with
      | rebase => exact h.of_stop
      | _ => exact Considered.fits (considerRaise_considered nofun) htidy hin
  case h_9 hph => exact h.of_launchRaise hph

end Host

/-! ## Beside the cycle -/

namespace Slots

variable {cfg : Config} {session : Session} {phase : Phase}

/-- A session that ends gives its slot back. -/
def release (s : Slots) (session : Session) : Slots :=
  { s with sessions := s.sessions.erase session, running := s.running.erase session.issueId }

theorem Tidy.release (h : s.Tidy) (hmem : session ∈ s.sessions) : (s.release session).Tidy where
  single := h.single.sublist (erase_sublist.map _)
  enrolled := by
    intro other hot
    have hpe := (perm_cons_erase hmem).map (·.issueId)
    have hnew := (nodup_cons.mp (hpe.nodup_iff.mp h.single)).1
    have hne : other.issueId ≠ session.issueId := fun heq =>
      hnew (mem_map.mpr ⟨other, hot, heq⟩)
    exact Finset.mem_erase.mpr ⟨hne, h.enrolled other (mem_of_mem_erase hot)⟩
  rebases := h.rebases
  apart := fun id hid hru => h.apart id hid (Finset.mem_of_mem_erase hru)

theorem Room.release (h : s.Room cfg n) : (s.release session).Room cfg n := by
  have hca : (s.running.erase session.issueId).card ≤ s.running.card := Finset.card_erase_le
  unfold Room at h ⊢
  show (s.running.erase session.issueId).card + s.rebases.length + n ≤ _
  omega

theorem InHand.release (h : s.InHand cfg caller id) : (s.release session).InHand cfg caller id :=
  ⟨h.started, fun hru => h.idle (Finset.mem_of_mem_erase hru), h.slot, h.room.release⟩

theorem Conflict.release (h : s.Conflict cfg id loop) : (s.release session).Conflict cfg id loop :=
  { h with idle := fun hru => h.idle (Finset.mem_of_mem_erase hru), room := h.room.release }

theorem Enrolled.release (h : s.Enrolled cfg caller id)
    (hmem : session ∈ s.sessions) : (s.release session).Enrolled cfg caller id where
  started := h.started
  running := Finset.mem_erase.mpr ⟨(h.fresh session hmem).symm, h.running⟩
  fresh := fun other hot => h.fresh other (mem_of_mem_erase hot)
  room := h.room.release

theorem Reserved.release (h : s.Reserved cfg phase) (hmem : session ∈ s.sessions) :
    (s.release session).Reserved cfg phase := by
  cases h with
  | resting h => exact .resting h.release
  | fetchingCandidates h => exact .fetchingCandidates h.release
  | stopped h => exact .stopped h.release
  | fetchingRetry h => exact .fetchingRetry h.release
  | collecting hst h => exact .collecting hst h.release
  | fetchingConflict h => exact .fetchingConflict h.release
  | conflictWorkspace h => exact .conflictWorkspace h.release
  | considering h => exact .considering h.release
  | inHand h hea hsg => exact .inHand h.release hea hsg
  | enrolled h => exact .enrolled (h.release hmem)

/-- The background task of a rebase run turns into a session. -/
def startRebase (s : Slots) (session : Session) : Slots :=
  { s with
    rebases := s.rebases.erase session.issueId
    running := insert session.issueId s.running
    sessions := s.sessions ++ [session] }

section StartRebase

variable (htidy : s.Tidy) (hmem : session.issueId ∈ s.rebases)
include htidy hmem

theorem Tidy.startRebase : (s.startRebase session).Tidy where
  single := by
    have hil := htidy.apart session.issueId hmem
    have hnew : session.issueId ∉ s.sessions.map (·.issueId) := by
      intro hin
      obtain ⟨other, hot, heq⟩ := mem_map.mp hin
      exact hil (heq ▸ htidy.enrolled other hot)
    show ((s.sessions ++ [session]).map _).Nodup
    rw [map_append]
    exact append htidy.single (nodup_singleton _) (by simpa using hnew)
  enrolled := by
    intro other hot
    rcases mem_append.mp hot with hold | hnew
    · exact Finset.mem_insert_of_mem (htidy.enrolled other hold)
    · rw [mem_singleton.mp hnew]
      exact Finset.mem_insert_self _ _
  rebases := htidy.rebases.sublist erase_sublist
  apart := by
    intro id hid hru
    have ⟨hne, hold⟩ := (mem_erase_iff htidy.rebases).mp hid
    rcases Finset.mem_insert.mp hru with heq | hru
    · exact hne heq
    · exact htidy.apart id hold hru

theorem Room.startRebase (h : s.Room cfg n) : (s.startRebase session).Room cfg n := by
  have hpos : 0 < s.rebases.length := length_pos_of_mem hmem
  unfold Room at h ⊢
  show (insert session.issueId s.running).card + (s.rebases.erase session.issueId).length + n ≤ _
  rw [Finset.card_insert_of_notMem (htidy.apart session.issueId hmem), length_erase_of_mem hmem]
  omega

theorem Conflict.startRebase (h : s.Conflict cfg id loop) :
    (s.startRebase session).Conflict cfg id loop where
  idle := by
    intro hru
    rcases Finset.mem_insert.mp hru with heq | hru
    · exact h.apart id mem_cons_self (heq ▸ hmem)
    · exact h.idle hru
  others := h.others
  apart := fun other hot hin => h.apart other hot (mem_of_mem_erase hin)
  slot := h.slot
  room := h.room.startRebase htidy hmem

theorem Reserved.startRebase (h : s.Reserved cfg phase) :
    (s.startRebase session).Reserved cfg phase := by
  have some_left (hst : s.rebases = []) : False := by
    rw [hst] at hmem
    cases hmem
  cases h with
  | resting h => exact .resting (h.startRebase htidy hmem)
  | fetchingCandidates h => exact .fetchingCandidates (h.startRebase htidy hmem)
  | stopped h => exact .stopped (h.startRebase htidy hmem)
  | fetchingConflict h => exact .fetchingConflict (h.startRebase htidy hmem)
  | conflictWorkspace h => exact .conflictWorkspace (h.startRebase htidy hmem)
  -- the other loops begin when every rebase run has started
  | collecting hst => exact (some_left hst).elim
  | fetchingRetry h | considering h | inHand h | enrolled h => exact (some_left h.started).elim

end StartRebase

end Slots

namespace Host

variable {cfg : Config} (h : Fits cfg d)

include h

variable (id : IssueId)

theorem Fits.of_rebaseStarts : Fits cfg (d.rebaseStarts id) := by
  unfold rebaseStarts
  split
  case isTrue hmem =>
    let session : Session := { task := d.nextTask, issueId := id, runKind := .agentRebase }
    have hmem : session.issueId ∈ d.slots.rebases := hmem
    exact ⟨h.tidy.startRebase hmem, h.reserved.startRebase h.tidy hmem⟩
  · exact h

theorem Fits.of_sessionEnds (task : TaskId) (status : IssueStatus) (prNumber : Option Nat) :
    Fits cfg (d.sessionEnds task status prNumber) := by
  unfold sessionEnds
  split
  · exact h
  rename_i session hfi
  have hmem : session ∈ d.slots.sessions := mem_of_find?_eq_some hfi
  have htidy := h.tidy.release hmem
  have hre := h.reserved.release hmem
  split
  all_goals exact ⟨htidy, hre⟩

theorem Fits.of_settle : Fits cfg (d.settle id) := by
  unfold settle
  split
  · exact { h with }
  · exact h

theorem Fits.of_applyCommand (command : OperatorCommand) :
    Fits cfg (d.applyCommand id command) := by
  cases command <;> exact { h with }

theorem whenResting_fits {act : Host → Host} (hact : d.phase = .resting → Fits cfg (act d)) :
    Fits cfg (d.whenResting act) := by
  unfold whenResting
  split
  case isTrue hph => exact hact hph
  · exact h

theorem Fits.of_processReviewFeedback (hst : d.rebases = []) :
    Fits cfg (d.processReviewFeedback cfg) := by
  unfold processReviewFeedback
  split
  · exact ⟨h.tidy, .collecting hst (freeSlots_room h.room hst)⟩
  · exact h

theorem Fits.of_processPendingRebaseConflicts (hst : d.rebases = []) :
    Fits cfg (d.processPendingRebaseConflicts cfg) := by
  refine nextConflict_fits h.tidy _ _ d.registry.nodup ?_ (freeSlots_room h.room hst)
  intro id _ hmem
  rw [hst] at hmem
  cases hmem

/-- One step keeps the slots in order if what it relies on has been counted. -/
theorem Fits.step (input : Input) (hco : d.Counted input) : Fits cfg (d.step cfg input) := by
  cases input with
  | retries ready =>
    show Fits cfg (d.whenResting (·.nextRetry cfg ready))
    exact whenResting_fits h fun hph => nextRetry_fits h.tidy (hco hph) h.room ready
  | reviewFeedback => exact whenResting_fits h fun hph => h.of_processReviewFeedback (hco hph)
  | rebaseConflicts =>
    exact whenResting_fits h fun hph => h.of_processPendingRebaseConflicts (hco hph)
  | poll =>
    show Fits cfg (d.whenResting fun d => { d with phase := .fetchingCandidates })
    exact whenResting_fits h fun _ => ⟨h.tidy, .fetchingCandidates h.room⟩
  | answered reply => exact h.of_answer reply hco
  | raised => exact h.of_raise
  | rebaseStarts id => exact h.of_rebaseStarts id
  | sessionEnds task status prNumber => exact h.of_sessionEnds task status prNumber
  | settle id => exact h.of_settle id
  | command id command => exact h.of_applyCommand id command

omit h

instance (cfg : Config) (d : Host) : Decidable (Limited cfg d) :=
  decidable_of_iff _ (limited_iff cfg d).symm

/-- An issue with a pull request. -/
def withPullRequest : Registry := Dict.empty.set id { status := .synced, prNumber := some 7 }

/-- A candidate with the follow-up label has feedback that waits, and gets its session. -/
def followsUp : List Input :=
  [.answered (.labels .followup), .answered (.command none), .answered (.feedback true 0),
    .answered .done, .answered .done, .answered .done]

/-- A follow-up on command and a new issue, in one poll. -/
def followupThenIssue : List Input :=
  .poll :: .answered (.candidates [⟨"a", ["agent:follow-up"], []⟩, ⟨"b", [], []⟩]) ::
    followsUp ++ launches

/-- The rebase run of an issue is created, and starts while the same issue is launched again
by the next poll. -/
def rebaseThenRetry : List Input :=
  [.rebaseConflicts, .answered .done, .answered .done,
    .poll, .answered (.candidates [⟨"a", ["agent:retry"], []⟩]),
    .answered (.labels .retry), .answered (.command none), .rebaseStarts "a",
    .answered .done, .answered .done, .answered .done,
    .answered (.refreshed (.active false)), .answered .done]

end Host

end Orchestratord.Dispatch
