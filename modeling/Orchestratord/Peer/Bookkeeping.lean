import Orchestratord.Peer.Dispatcher

/-! # The tables of the dispatcher over time

The ordering table against the sequence numbers that were received, and the count of scheduled
turns against the tasks that run them. -/

namespace Orchestratord.Peer

open Foundation Dispatcher Finset List

variable {V : Type}

/-! ## Sequence numbers -/

/-- A message of a session, as far as the ordering table looks at it. -/
structure Check where
  orchId : OrchId
  sessionId : String
  ordering : Option (Option Int)

variable (d : Dispatcher V)

def Dispatcher.check (c : Check) : Dispatcher V :=
  (d.checkOrdering c.orchId c.sessionId c.ordering).2

/-- The sequence numbers that were received for a session. -/
def received (key : OrchId × String) (checks : List Check) : List Int :=
  checks.filterMap fun c => if (c.orchId, c.sessionId) = key then c.ordering.join else none

theorem max?_concat (seen : List Int) (seq : Int) :
    (seen ++ [seq]).max? = some ((seen.max?).elim seq (max seq)) := by
  cases seen with
  | nil => rfl
  | cons =>
    rw [cons_append, max?_cons', foldl_append]
    exact congrArg some (max_comm _ _)

/-- The mark of a session after one more message. -/
theorem ordering_check (c : Check) (key : OrchId × String) : (d.check c).ordering key =
      if (c.orchId, c.sessionId) = key then
        c.ordering.join.elim (d.ordering key) fun seq =>
          some ((d.ordering key).elim seq (max seq))
      else d.ordering key := by
  obtain ⟨orchId, sessionId, _ | _ | seq⟩ := c
  · exact (ite_self _).symm
  · exact (ite_self _).symm
  unfold check checkOrdering
  by_cases hkey : (orchId, sessionId) = key
  · subst hkey
    rcases hla : d.ordering (orchId, sessionId) with _ | last
    · simp [hla]
    dsimp only
    rw [hla]
    dsimp only
    split
    · simp
    · have hle : last ≤ seq := by omega
      simp [hle]
  · rw [if_neg hkey]
    dsimp only
    split
    · exact Function.update_of_ne (symm hkey) _ _
    · split <;> exact Function.update_of_ne (symm hkey) _ _

variable (checks : List Check)

theorem ordering_run (key : OrchId × String) :
    (runFrom .check ({} : Dispatcher V) checks).ordering key = (received key checks).max? := by
  induction checks using reverseRecOn with
  | nil => rfl
  | append_singleton checks c ih =>
    rw [runFrom_append, runFrom_cons, runFrom_nil, ordering_check, ih]
    split
    case isTrue hkey =>
      cases hseq : c.ordering.join with
      | none => simp [received, hseq]
      | some => simp [received, hkey, hseq, max?_concat]
    case isFalse hkey => simp [received, hkey]

/-- After any messages of any sessions, the mark of a session is the largest number received for it,
and the next number is in order just if it is the first one or follows the largest. -/
theorem in_order_iff (orchId : OrchId) (sessionId : String) :
    let d : Dispatcher V := runFrom .check {} checks
    let seen := received (orchId, sessionId) checks
    d.ordering (orchId, sessionId) = seen.max? ∧
      ∀ seq, (d.checkOrdering orchId sessionId (some (some seq))).1 = true ↔
        seen = [] ∨ ∃ last, seen.max? = some last ∧ seq = last + 1 := by
  intro d seen
  have hma : d.ordering (orchId, sessionId) = seen.max? := ordering_run checks _
  refine ⟨hma, fun seq => ?_⟩
  dsimp only [checkOrdering]
  rw [hma]
  rcases hla : seen.max? with _ | _
  · simp [max?_eq_none_iff.mp hla]
  have hse : seen ≠ [] := by
    intro hnil
    rw [hnil] at hla
    cases hla
  dsimp only
  split
  case isTrue hgap => simp [hse, hgap]
  case isFalse hne => simpa [hse] using hne

/-! ## Turns -/

/-- How the task of a turn ends; a failure is logged, and a task can be cancelled at any time. -/
inductive TurnEnd where
  | returned
  | failed
  | cancelled

/-- The dispatcher with its set of turn tasks and, of these, the ones that have not ended. A task
that has ended is in the set until its callback runs. -/
structure Turns (V : Type) where
  config : PeerConfig
  dispatcher : Dispatcher V := {}
  liveTurns : Finset ℕ := ∅
  unfinished : Finset ℕ := ∅
  created : ℕ := 0

inductive TurnInput (V : Type) where
  /-- A message comes in and is looked up. -/
  | arrived (now : ℕ) (key : Key) (check : Check)
  /-- The operation of a message has returned. -/
  | executed (now : ℕ) (key : Key) (result : Stored V)
  | setAutoSchedule (enabled : Bool)
  | ended (task : ℕ) (how : TurnEnd)
  | released (task : ℕ)

namespace Turns

def step (t : Turns V) : TurnInput V → Turns V
  | .arrived now key check => { t with dispatcher := (t.dispatcher.dropExpired now key).check check }
  | .executed now key result =>
    let dispatched := t.dispatcher.completeDispatch t.config now key result
    let t := { t with dispatcher := dispatched.2 }
    if dispatched.1 then
      { t with
        liveTurns := insert t.created t.liveTurns
        unfinished := insert t.created t.unfinished
        created := t.created + 1 }
    else t
  | .setAutoSchedule enabled => { t with config := { t.config with autoSchedule := enabled } }
  | .ended task _ => { t with unfinished := t.unfinished.erase task }
  | .released task =>
    if task ∈ t.liveTurns ∧ task ∉ t.unfinished then
      { t with
        dispatcher := { t.dispatcher with activeTurns := t.dispatcher.activeTurns - 1 }
        liveTurns := t.liveTurns.erase task }
    else t

/-- The count is that of the tasks in the set, and within the cap. -/
structure Counted (cap : ℕ) (t : Turns V) : Prop where
  config : t.config.maxConcurrentPeerTurns = cap
  count : t.dispatcher.activeTurns = t.liveTurns.card
  limit : t.dispatcher.activeTurns ≤ max 1 cap
  live : t.unfinished ⊆ t.liveTurns
  numbered : ∀ task ∈ t.liveTurns, task < t.created

/-- Messages that come in do not touch the count. -/
theorem activeTurns_arrived (now : ℕ) (key : Key) (c : Check) :
    ((d.dropExpired now key).check c).activeTurns = d.activeTurns := by
  have hdr : (d.dropExpired now key).activeTurns = d.activeTurns := by
    unfold dropExpired
    split <;> rfl
  rw [← hdr]
  unfold check checkOrdering
  split
  · rfl
  · rfl
  dsimp only
  split
  · rfl
  · split <;> rfl

/-- A dispatch schedules at most one turn, and only below the cap. -/
theorem activeTurns_completeDispatch (config : PeerConfig) (now : ℕ) (key : Key)
    (result : Stored V) : ∀ dispatched, d.completeDispatch config now key result = dispatched →
      (dispatched.1 = false ∧ dispatched.2.activeTurns = d.activeTurns) ∨
      (dispatched.1 = true ∧ dispatched.2.activeTurns = d.activeTurns + 1 ∧
        d.activeTurns < max 1 config.maxConcurrentPeerTurns) := by
  rintro _ rfl
  dsimp only [completeDispatch, scheduleTurn]
  split
  · split
    · exact .inl ⟨rfl, rfl⟩
    case isFalse hfr => exact .inr ⟨rfl, rfl, not_le.mp hfr⟩
  · exact .inl ⟨rfl, rfl⟩

theorem Counted.step {cap : ℕ} {t : Turns V} (h : Counted cap t) (input : TurnInput V) :
    Counted cap (t.step input) := by
  cases input with
  | arrived now key check =>
    have hsa := activeTurns_arrived t.dispatcher now key check
    exact ⟨h.config, hsa.trans h.count, hsa.trans_le h.limit, h.live, h.numbered⟩
  | executed now key result =>
    rcases activeTurns_completeDispatch t.dispatcher t.config now key result _ rfl with
      ⟨hno, hsa⟩ | ⟨hone, hmo, hfr⟩
    · rw [Turns.step, if_neg (by simp [hno])]
      exact ⟨h.config, hsa.trans h.count, hsa.trans_le h.limit, h.live, h.numbered⟩
    -- the new task has a number of its own
    have hfh : t.created ∉ t.liveTurns := fun hmem => lt_irrefl _ (h.numbered _ hmem)
    rw [Turns.step, if_pos hone]
    refine ⟨h.config, ?_, ?_, insert_subset_insert _ h.live, ?_⟩
    · rwa [card_insert_of_notMem hfh, ← h.count]
    · rw [h.config] at hfr
      exact hmo.trans_le hfr
    intro task hta
    rcases mem_insert.mp hta with rfl | hold
    · exact Nat.lt_succ_self _
    · exact Nat.lt_succ_of_lt (h.numbered task hold)
  | setAutoSchedule => exact { h with }
  | ended => exact { h with live := (erase_subset _ _).trans h.live }
  | released =>
    rw [Turns.step]
    split
    case isTrue hov =>
      refine ⟨h.config, ?_, (Nat.sub_le _ _).trans h.limit, ?_,
        fun task' hta' => h.numbered task' (mem_of_mem_erase hta')⟩
      · rw [card_erase_of_mem hov.1, ← h.count]
      intro task' hta'
      refine mem_erase.mpr ⟨?_, h.live hta'⟩
      rintro rfl
      exact hov.2 hta'
    · exact h

/-- In every run, whatever the messages are and however the turns end, the count of active turns is
the number of the tasks whose callback has not run, all tasks that have not ended are among them,
and it is within the cap. -/
theorem active_turns_counted (config : PeerConfig) (inputs : List (TurnInput V)) :
    let t := runFrom step { config } inputs
    t.dispatcher.activeTurns = t.liveTurns.card ∧ t.unfinished ⊆ t.liveTurns ∧
      t.dispatcher.activeTurns ≤ max 1 config.maxConcurrentPeerTurns := by
  have h : Counted config.maxConcurrentPeerTurns (runFrom step { config } inputs) :=
    Guarded.always (fun _ i h => h.step i) ⟨rfl, rfl, Nat.zero_le _, refl _, by simp⟩ inputs
  exact ⟨h.count, h.live, h.limit⟩

end Turns

end Orchestratord.Peer
