import Orchestratord.Foundation.Runs

/-! # The autopilot's schedule

A tick runs the newest slot of the schedule, unless that is an interval old or has a run. The loop
then sleeps for an interval. Schedulers share a table of runs that may hold a slot twice. -/

namespace Orchestratord.Scheduler

open Foundation List

/-- Other schedulers can write between the look for the slot's run and the insertion. -/
inductive Phase where
  | stopped
  | claiming
  | inserting
  | ticked
  | sleeping (wake : ℤ)
  deriving DecidableEq

def Phase.claims (phase : Phase) : Bool := phase = .claiming ∨ phase = .inserting

/-- A loop, with the times at which its first tick and its last one started. -/
structure Loop where
  phase : Phase := .stopped
  began : ℤ := 0
  current : ℤ := 0

/-- The schedulers, and the slots of the runs of an enabled autopilot. -/
structure Host where
  clock : ℤ := 0
  loops : ℕ → Loop := fun _ => {}
  runs : List ℤ := []

/-- A tick ends with `sleep`, also if it has raised. -/
inductive Input where
  | tick (k : ℕ) (now : ℤ)
  | findForSlot (k : ℕ)
  | insert (k : ℕ)
  | sleep (k : ℕ) (now : ℤ)

variable (lastDueSlot : ℤ → ℤ) (interval : ℤ) (now : ℤ)

def isDue : Bool := now - lastDueSlot now < interval

def Loop.wakes (l : Loop) : Bool :=
  match l.phase with
  | .stopped => true
  | .sleeping wake => wake ≤ now
  | _ => false

def Loop.tick (l : Loop) : Loop where
  phase := if isDue lastDueSlot interval now then .claiming else .ticked
  began := if l.phase = .stopped then now else l.began
  current := now

namespace Host

variable (s : Host)

def put (k : ℕ) (l : Loop) : Host := { s with loops := Function.update s.loops k l }

def enter (k : ℕ) (phase : Phase) : Host := s.put k { s.loops k with phase }

def step : Input → Host
  | .tick k now =>
    if s.clock ≤ now ∧ (s.loops k).wakes now then
      { s.put k ((s.loops k).tick lastDueSlot interval now) with clock := now }
    else s
  | .findForSlot k =>
    if (s.loops k).phase = .claiming then
      s.enter k (if lastDueSlot (s.loops k).current ∈ s.runs then .ticked else .inserting)
    else s
  | .insert k =>
    if (s.loops k).phase = .inserting then
      { s.enter k .ticked with runs := s.runs ++ [lastDueSlot (s.loops k).current] }
    else s
  | .sleep k now =>
    if s.clock ≤ now ∧ ((s.loops k).phase = .ticked ∨ (s.loops k).phase.claims) then
      { s.enter k (.sleeping (now + interval)) with clock := now }
    else s

variable (slots : Set ℤ)

/-- The slots since the first tick, but for the one that is being claimed, have a run. -/
def Fired (runs : List ℤ) (l : Loop) : Prop :=
  l.phase ≠ .stopped → ∀ slot ∈ slots, l.began ≤ slot → slot < l.current →
    slot ∈ runs ∨ l.phase.claims ∧ slot = lastDueSlot l.current

/-- No slot has two runs, and none that a loop has seen is without one. -/
structure ExactlyOnce (s : Host) : Prop where
  once : s.runs.Nodup
  fired : ∀ k, Fired lastDueSlot slots s.runs (s.loops k)

/-- What has fallen since the last tick has a run or is the newest slot and less than an interval
old; no other scheduler writes between the look and the insertion; and no tick raises. -/
def Timely (s : Host) : Input → Prop
  | .tick k now => (s.loops k).phase ≠ .stopped → ∀ slot ∈ slots, (s.loops k).current ≤ slot →
      slot < now → slot ∈ s.runs ∨
        now - slot < interval ∧ ∀ other ∈ slots, other < now → other ≤ slot
  | .findForSlot _ => True
  | .insert k => (s.loops k).phase = .inserting → lastDueSlot (s.loops k).current ∉ s.runs
  | .sleep k _ => ¬ (s.loops k).phase.claims

variable {lastDueSlot interval slots}

namespace ExactlyOnce

variable {s : Host} (h : s.ExactlyOnce lastDueSlot slots) {k : ℕ} {runs : List ℤ}
include h

theorem put {l : Loop} (hno : runs.Nodup) (hru : s.runs ⊆ runs)
    (hl : Fired lastDueSlot slots runs l) (clock : ℤ) :
    ExactlyOnce lastDueSlot slots { s.put k l with runs, clock } where
  once := hno
  fired j := by
    by_cases hj : j = k
    · subst hj
      simpa [Host.put] using hl
    · simp only [Host.put, Function.update_of_ne hj]
      exact fun hst slot hsl hbe hcu => (h.fired j hst slot hsl hbe hcu).imp_left (hru ·)

theorem enter {phase : Phase} (hno : runs.Nodup) (hru : s.runs ⊆ runs)
    (hst : (s.loops k).phase ≠ .stopped)
    (hcl : (s.loops k).phase.claims → lastDueSlot (s.loops k).current ∈ runs ∨ phase.claims)
    (clock : ℤ) : ExactlyOnce lastDueSlot slots { s.enter k phase with runs, clock } := by
  refine h.put hno hru (fun _ slot hsl hbe hcu => ?_) clock
  rcases h.fired k hst slot hsl hbe hcu with hmem | ⟨hca, rfl⟩
  · exact .inl (hru hmem)
  · exact (hcl hca).imp_right fun hcl => ⟨hcl, rfl⟩

theorem tick (hgr : ∀ now, IsGreatest {slot ∈ slots | slot < now} (lastDueSlot now)) {now : ℤ}
    (hti : s.Timely lastDueSlot interval slots (.tick k now)) (hwa : (s.loops k).wakes now) :
    Fired lastDueSlot slots s.runs ((s.loops k).tick lastDueSlot interval now) := by
  intro _ slot hsl hbe hno
  dsimp only [Loop.tick] at *
  by_cases hst : (s.loops k).phase = .stopped
  · rw [if_pos hst] at hbe
    omega
  rw [if_neg hst] at hbe
  by_cases hcu : slot < (s.loops k).current
  · refine (h.fired k hst slot hsl hbe hcu).imp_right fun ⟨hcl, _⟩ => ?_
    unfold Loop.wakes at hwa
    split at hwa <;> simp_all [Phase.claims]
  · refine (hti hst slot hsl (not_lt.mp hcu) hno).imp_right fun ⟨hin, hne⟩ => ?_
    have hla : slot = lastDueSlot now :=
      le_antisymm ((hgr now).2 ⟨hsl, hno⟩) (hne _ (hgr now).1.1 (hgr now).1.2)
    rw [if_pos (by simpa [isDue, ← hla] using hin)]
    exact ⟨rfl, hla⟩

theorem step (hgr : ∀ now, IsGreatest {slot ∈ slots | slot < now} (lastDueSlot now))
    (input : Input) (hti : s.Timely lastDueSlot interval slots input) :
    ExactlyOnce lastDueSlot slots (s.step lastDueSlot interval input) := by
  cases input
  all_goals
    dsimp only [Host.step]
    split
    swap
    · exact h
  case tick _ now hen => exact h.put h.once (Subset.refl _) (h.tick hgr hti hen.2) now
  case findForSlot k hcl =>
    refine h.enter h.once (Subset.refl _) (by simp [hcl]) (fun _ => ?_) s.clock
    by_cases hru : lastDueSlot (s.loops k).current ∈ s.runs <;> simp [hru, Phase.claims]
  case insert _ hin =>
    exact h.enter (concat_eq_append ▸ Nodup.concat (hti hin) h.once) (subset_append_left _ _)
      (by simp [hin]) (fun _ => by simp) s.clock
  case sleep k now hen =>
    refine h.enter h.once (Subset.refl _) ?_ (fun hcl => absurd hcl hti) now
    rintro hph
    simp [hph, Phase.claims] at hen

end ExactlyOnce

/-- In a run whose steps are all timely, every slot has exactly one run in every state reached. -/
theorem exactlyOnce_of_timely
    (hgr : ∀ now, IsGreatest {slot ∈ slots | slot < now} (lastDueSlot now)) (clock : ℤ)
    (inputs : List Input)
    (hrun : Guarded (step lastDueSlot interval) (Timely lastDueSlot interval slots) { clock } inputs)
    (start : List Input) (hst : start <+: inputs) :
    ExactlyOnce lastDueSlot slots (runFrom (step lastDueSlot interval) { clock } start) :=
  hrun.throughout (fun _ input h hti => ExactlyOnce.step h hgr input hti)
    ⟨nodup_nil, fun _ hno => absurd rfl hno⟩ hst

/-- The schedule `* * * * *` in seconds. -/
def everyMinute : Set ℤ := {slot | 60 ∣ slot}

def lastMinute (now : ℤ) : ℤ := 60 * ((now - 1) / 60)

def minutes : List Input :=
  [.tick 0 1, .findForSlot 0, .insert 0, .sleep 0 1, .tick 0 61, .findForSlot 0, .insert 0]

theorem minutes_exactlyOnce :
    ExactlyOnce lastMinute everyMinute (runFrom (step lastMinute 60) {} minutes) := by
  have hgr (now : ℤ) : IsGreatest {slot ∈ everyMinute | slot < now} (lastMinute now) := by
    refine ⟨⟨⟨_, rfl⟩, ?_⟩, ?_⟩
    · simp only [lastMinute]
      omega
    · rintro slot ⟨⟨n, rfl⟩, hno⟩
      simp only [lastMinute]
      omega
  have hsi : ∀ slot ∈ everyMinute, 1 ≤ slot → slot < 61 → slot ∈ [0] ∨
      61 - slot < 60 ∧ ∀ other ∈ everyMinute, other < 61 → other ≤ slot := by
    rintro slot ⟨n, rfl⟩ hcu hno
    refine .inr ⟨by omega, ?_⟩
    rintro other ⟨m, rfl⟩ hot
    omega
  have hrun : Guarded (step lastMinute 60) (Timely lastMinute 60 everyMinute) {} minutes :=
    ⟨fun hph => absurd rfl hph, trivial, fun _ => by decide, (nomatch ·), fun _ => hsi, trivial,
      fun _ => by decide, trivial⟩
  exact exactlyOnce_of_timely hgr 0 minutes hrun _ (prefix_refl _)

/-- A tick of two seconds moves the next one beyond the slot that falls in it; and two schedulers
that look at once both insert. -/
theorem minute_missed_and_minute_twice :
    ¬ ExactlyOnce lastMinute everyMinute (runFrom (step lastMinute 60) {} [.tick 0 59,
      .findForSlot 0, .insert 0, .sleep 0 61, .tick 0 121]) ∧
    ¬ ExactlyOnce lastMinute everyMinute (runFrom (step lastMinute 60) {} [.tick 0 1, .tick 1 1,
      .findForSlot 0, .findForSlot 1, .insert 0, .insert 1]) := by
  constructor
  · intro h
    have hmi := h.fired 0 (by decide) 60 ⟨1, rfl⟩ (by decide) (by decide)
    revert hmi
    decide
  · intro h
    have htw := h.once
    revert htw
    decide

end Host

end Orchestratord.Scheduler
