import Mathlib

/-! # Runs of a state machine

A machine is a step function on states and inputs. `Guarded` says that every input of a
run meets a condition in the state it is taken in, and the rules below carry an invariant
along such a run. -/

namespace Orchestratord.Foundation

open List

variable {σ ι : Type*} {step : σ → ι → σ}

/-- The state after a list of inputs. -/
def runFrom (step : σ → ι → σ) (s : σ) (inputs : List ι) : σ := inputs.foldl step s

@[simp] theorem runFrom_nil (s : σ) : runFrom step s [] = s := rfl

@[simp] theorem runFrom_cons (s : σ) (i : ι) (rest : List ι) :
    runFrom step s (i :: rest) = runFrom step (step s i) rest := rfl

theorem runFrom_append (s : σ) (first later : List ι) :
    runFrom step s (first ++ later) = runFrom step (runFrom step s first) later :=
  foldl_append

/-- Every input of the run meets `Ok` in the state in which it is taken. -/
def Guarded (step : σ → ι → σ) (Ok : σ → ι → Prop) : σ → List ι → Prop
  | _, [] => True
  | s, i :: rest => Ok s i ∧ Guarded step Ok (step s i) rest

instance Guarded.decidable {Ok : σ → ι → Prop} [∀ s i, Decidable (Ok s i)] (s : σ)
    (inputs : List ι) : Decidable (Guarded step Ok s inputs) :=
  match inputs with
  | [] => .isTrue trivial
  | i :: rest =>
    have : Decidable (Guarded step Ok (step s i) rest) := Guarded.decidable (step s i) rest
    inferInstanceAs (Decidable (Ok s i ∧ Guarded step Ok (step s i) rest))

namespace Guarded

variable {Ok : σ → ι → Prop} {Inv : σ → Prop} {s : σ} {inputs : List ι}

/-- What every allowed step keeps holds at the end of an allowed run. -/
theorem invariant (hst : ∀ s i, Inv s → Ok s i → Inv (step s i))
    (hrun : Guarded step Ok s inputs) (hin : Inv s) : Inv (runFrom step s inputs) := by
  induction inputs generalizing s with
  | nil => exact hin
  | cons i _ ih => exact ih hrun.2 (hst s i hin hrun.1)

/-- A condition on the inputs alone. -/
theorem of_forall {P : ι → Prop} (h : ∀ i ∈ inputs, P i) :
    Guarded step (fun _ i => P i) s inputs := by
  induction inputs generalizing s with
  | nil => trivial
  | cons i _ ih => exact ⟨h i mem_cons_self, ih fun j hj => h j (mem_cons_of_mem i hj)⟩

/-- What every step keeps holds at the end of every run. -/
theorem always (hst : ∀ s i, Inv s → Inv (step s i)) (hin : Inv s) (inputs : List ι) :
    Inv (runFrom step s inputs) :=
  (of_forall fun _ _ => trivial).invariant (fun s i h _ => hst s i h) hin

theorem of_prefix {start : List ι} (hrun : Guarded step Ok s inputs) (hpre : start <+: inputs) :
    Guarded step Ok s start := by
  induction start generalizing s inputs with
  | nil => trivial
  | cons _ rest ih =>
    obtain ⟨later, rfl⟩ := hpre
    exact ⟨hrun.1, ih hrun.2 (prefix_append rest later)⟩

/-- The last input of a run is taken in the state that the others lead to. -/
theorem last {i : ι} (hrun : Guarded step Ok s (inputs ++ [i])) : Ok (runFrom step s inputs) i := by
  induction inputs generalizing s with
  | nil => exact hrun.1
  | cons _ _ ih => exact ih hrun.2

theorem iff_forall : Guarded step Ok s inputs ↔
    ∀ done i, done ++ [i] <+: inputs → Ok (runFrom step s done) i := by
  constructor
  · intro hrun done i hpre
    exact (hrun.of_prefix hpre).last
  intro hall
  induction inputs generalizing s with
  | nil => trivial
  | cons i rest ih =>
    refine ⟨hall [] i (prefix_append [i] rest), ih fun done j hpre => ?_⟩
    exact hall (i :: done) j (cons_prefix_cons.mpr ⟨rfl, hpre⟩)

/-- Conditions that agree on every allowed step are met by the same allowed runs. -/
theorem congr {P Q : σ → ι → Prop} (hag : ∀ s i, Ok s i → (P s i ↔ Q s i))
    (hrun : Guarded step Ok s inputs) : Guarded step P s inputs ↔ Guarded step Q s inputs := by
  induction inputs generalizing s with
  | nil => exact .rfl
  | cons i _ ih => exact and_congr (hag s i hrun.1) (ih hrun.2)

/-- It holds in every state the run passes through. -/
theorem throughout (hst : ∀ s i, Inv s → Ok s i → Inv (step s i))
    (hrun : Guarded step Ok s inputs) (hin : Inv s) {start : List ι} (hpre : start <+: inputs) :
    Inv (runFrom step s start) :=
  (hrun.of_prefix hpre).invariant hst hin

/-- If the allowed steps are exactly those that keep the invariant, the allowed runs are exactly
those that keep it throughout. `Aux` holds in every state that is reached. -/
theorem iff_throughout {Aux : σ → Prop} (haux : ∀ s i, Aux s → Aux (step s i))
    (hsp : ∀ s i, Aux s → Inv s → (Inv (step s i) ↔ Ok s i)) (hst : Aux s) (hin : Inv s) :
    Guarded step Ok s inputs ↔ ∀ start, start <+: inputs → Inv (runFrom step s start) := by
  constructor
  · intro hrun start hpre
    have hke : ∀ s i, Aux s ∧ Inv s → Ok s i → Aux (step s i) ∧ Inv (step s i) :=
      fun s i h hok => ⟨haux s i h.1, (hsp s i h.1 h.2).mpr hok⟩
    exact (throughout hke hrun ⟨hst, hin⟩ hpre).2
  · intro hall
    induction inputs generalizing s with
    | nil => trivial
    | cons i rest ih =>
      have hne : Inv (step s i) := hall [i] (prefix_append [i] rest)
      refine ⟨(hsp s i hst hin).mp hne, ih (haux s i hst) hne ?_⟩
      intro start hpre
      exact hall (i :: start) (cons_prefix_cons.mpr ⟨rfl, hpre⟩)

/-- A preorder that every allowed step respects relates any two states of the run, in the
order in which they are reached. -/
theorem related {R : σ → σ → Prop} (hre : ∀ s, R s s) (htr : ∀ s t u, R s t → R t u → R s u)
    (hst : ∀ s i, Inv s → Ok s i → Inv (step s i) ∧ R s (step s i))
    (hrun : Guarded step Ok s inputs) (hin : Inv s) {earlier later : List ι}
    (hea : earlier <+: later) (hla : later <+: inputs) :
    R (runFrom step s earlier) (runFrom step s later) := by
  induction earlier generalizing s later inputs with
  | nil =>
    have hall := hrun.of_prefix hla
    clear hla hea hrun
    induction later generalizing s with
    | nil => exact hre s
    | cons i _ ih =>
      obtain ⟨hinv, hsR⟩ := hst s i hin hall.1
      exact htr _ _ _ hsR (ih hinv hall.2)
  | cons i rest ih =>
    obtain ⟨mid, rfl⟩ := hea
    obtain ⟨last, rfl⟩ := hla
    exact ih hrun.2 (hst s i hin hrun.1).1 (prefix_append rest mid)
      (prefix_append (rest ++ mid) last)

end Guarded

/-! ## Latches

A log of events is read as the state of a latch: on from an event that sets it to the next one
that resets it. -/

section

variable {ε : Type*} {sets resets : ε → Bool}

def latched (sets resets : ε → Bool) (log : List ε) : Bool :=
  log.foldl (fun on e => sets e || (on && ! resets e)) false

theorem latched_concat (log : List ε) (e : ε) :
    latched sets resets (log ++ [e]) ↔ sets e ∨ (latched sets resets log ∧ resets e = false) := by
  simp [latched]

theorem exists_sets_of_latched {log : List ε} (h : latched sets resets log) :
    ∃ e ∈ log, sets e := by
  induction log using reverseRecOn with
  | nil => cases h
  | append_singleton log e ih =>
    rcases (latched_concat log e).mp h with hset | ⟨hon, -⟩
    · exact ⟨e, mem_append_right log mem_cons_self, hset⟩
    · obtain ⟨e', hmem, hset⟩ := ih hon
      exact ⟨e', mem_append_left [e] hmem, hset⟩

/-- Events that do not set the latch do not turn it on. -/
theorem latched_of_append {log later : List ε} (hse : ∀ e ∈ later, sets e = false)
    (h : latched sets resets (log ++ later)) : latched sets resets log := by
  induction later generalizing log with
  | nil => simpa using h
  | cons e _ ih =>
    have hst : latched sets resets (log ++ [e]) := by
      apply ih fun e' he' => hse e' (mem_cons_of_mem e he')
      simpa using h
    rcases (latched_concat log e).mp hst with hset | ⟨hon, _⟩
    · rw [hse e mem_cons_self] at hset
      cases hset
    · exact hon

end

/-- What every input sets or leaves is what was set last. -/
theorem foldl_last_set {ι α : Type*} {f : σ → ι → σ} {set : ι → Option α} (g : σ → α)
    (h : ∀ s i, g (f s i) = (set i).getD (g s)) (inputs : List ι) (s : σ) :
    g (inputs.foldl f s) = (inputs.filterMap set).getLast?.getD (g s) := by
  induction inputs generalizing s with
  | nil => rfl
  | cons i rest ih =>
    rw [foldl_cons, ih, h, filterMap_cons]
    cases set i with
    | none => rfl
    | some a => simp [getLast?_cons]

/-! ## Machines without inputs

A machine that runs by itself has a next state, or none when it is over or waits. -/

section

variable {next : σ → Option σ} {Inv Goal : σ → Prop} {s s' : σ}

/-- The states that a machine comes to. -/
def Reaches (next : σ → Option σ) : σ → σ → Prop :=
  Relation.ReflTransGen fun s s' => next s = some s'

theorem Reaches.invariant (hne : ∀ s s', Inv s → next s = some s' → Inv s')
    (hre : Reaches next s s') (hin : Inv s) : Inv s' := by
  induction hre with
  | refl => exact hin
  | tail _ hst ih => exact hne _ _ ih hst

/-- A machine that can always go on, with less work left, comes to its goal. -/
theorem exists_reaches_of_progress (work : σ → ℕ)
    (hpr : ∀ s, Inv s → ¬ Goal s → ∃ s', next s = some s' ∧ Inv s' ∧ work s' < work s)
    (hin : Inv s) : ∃ s', Reaches next s s' ∧ Inv s' ∧ Goal s' := by
  -- the induction is on the work that is left
  induction hwo : work s using Nat.strong_induction_on generalizing s with
  | _ _ ih =>
    by_cases hgo : Goal s
    · exact ⟨s, .refl, hin, hgo⟩
    · obtain ⟨s', hst, hinv, hle⟩ := hpr s hin hgo
      obtain ⟨last, hre, hla⟩ := ih (work s') (hwo ▸ hle) hinv rfl
      exact ⟨last, .head hst hre, hla⟩

end

end Orchestratord.Foundation
