import Mathlib

/-! # Logs of writes

Operations write to cells. A view of the cells has the effect of all operations if every cell has
what the last operation that wrote it has left there. -/

namespace Orchestratord.Foundation

open List

variable {γ : Type} {V : γ → Type}

structure Write (γ : Type) (V : γ → Type) where
  writes : γ → Prop
  after : (c : γ) → V c

variable (log : List (Write γ V))

/-- What an operation has left in the cell is there, unless a later one wrote the cell. -/
def PresentAt (c : γ) (v : V c) : Prop :=
  ∀ earlier w later, log = earlier ++ w :: later → w.writes c → (∀ w' ∈ later, ¬ w'.writes c) →
    v = w.after c

def Present (view : (c : γ) → V c) : Prop := ∀ c, PresentAt log c (view c)

variable {log : List (Write γ V)} {w : Write γ V} {c : γ} {v v' : V c}

theorem presentAt_nil : PresentAt ([] : List (Write γ V)) c v := by
  intro _ w _ h
  simp at h

/-- An entry of a log is its last one or one of those before. -/
theorem concat_split {α : Type} {log earlier later : List α} {last e : α}
    (h : log ++ [last] = earlier ++ e :: later) :
    later = [] ∧ e = last ∨ ∃ rest, later = rest ++ [last] ∧ log = earlier ++ e :: rest := by
  rcases eq_nil_or_concat later with rfl | ⟨rest, final, rfl⟩
  · obtain ⟨-, hla⟩ := append_inj' h rfl
    cases hla
    exact .inl ⟨rfl, rfl⟩
  · rw [concat_eq_append, ← cons_append, ← append_assoc] at h
    obtain ⟨hlog, hla⟩ := append_inj' h rfl
    cases hla
    exact .inr ⟨rest, concat_eq_append, hlog⟩

theorem presentAt_concat_of_writes (h : w.writes c) :
    PresentAt (log ++ [w]) c v ↔ v = w.after c := by
  constructor
  · intro hv
    exact hv log w [] rfl h (nofun)
  intro hv _ _ _ hsp _ hla
  rcases concat_split hsp with ⟨-, rfl⟩ | ⟨rest, rfl, -⟩
  · exact hv
  · exact absurd h (hla w (by simp))

theorem presentAt_concat_of_not_writes (h : ¬ w.writes c) :
    PresentAt (log ++ [w]) c v ↔ PresentAt log c v := by
  constructor
  · intro hv earlier w₀ later hsp hw₀ hla
    refine hv earlier w₀ (later ++ [w]) ?_ hw₀ ?_
    · rw [hsp, append_assoc, cons_append]
    intro w' hw'
    rcases mem_append.mp hw' with hw' | hw'
    · exact hla w' hw'
    · rwa [mem_singleton.mp hw']
  · intro hv earlier w₀ _ hsp hw₀ hla
    rcases concat_split hsp with ⟨-, rfl⟩ | ⟨rest, rfl, hlog⟩
    · exact absurd hw₀ h
    · exact hv earlier w₀ rest hlog hw₀ fun w' hw' => hla w' (mem_append_left _ hw')

/-- A view that stays as it is has to have what is written already. -/
theorem present_concat_iff {view : (c : γ) → V c} (h : Present log view) :
    Present (log ++ [w]) view ↔ ∀ c, w.writes c → view c = w.after c := by
  constructor
  · intro hvi c hc
    exact (presentAt_concat_of_writes hc).mp (hvi c)
  intro hwr c
  by_cases hc : w.writes c
  · exact (presentAt_concat_of_writes hc).mpr (hwr c hc)
  · exact (presentAt_concat_of_not_writes hc).mpr (h c)

/-- What an operation leaves behind has to be right only where the operation does not write. -/
theorem present_concat_after_iff :
    Present (log ++ [w]) w.after ↔ ∀ c, ¬ w.writes c → PresentAt log c (w.after c) := by
  constructor
  · intro haf c hc
    exact (presentAt_concat_of_not_writes hc).mp (haf c)
  intro hot c
  by_cases hc : w.writes c
  · exact (presentAt_concat_of_writes hc).mpr rfl
  · exact (presentAt_concat_of_not_writes hc).mpr (hot c hc)

/-- A cell that was written has one value only. -/
theorem PresentAt.unique (h : PresentAt log c v) (h' : PresentAt log c v')
    (hwn : ∃ w ∈ log, w.writes c) : v = v' := by
  induction log using reverseRecOn with
  | nil =>
    obtain ⟨w, hw, -⟩ := hwn
    cases hw
  | append_singleton log last ih =>
    by_cases hla : last.writes c
    · rw [(presentAt_concat_of_writes hla).mp h, (presentAt_concat_of_writes hla).mp h']
    refine ih ((presentAt_concat_of_not_writes hla).mp h)
      ((presentAt_concat_of_not_writes hla).mp h') ?_
    obtain ⟨w, hw, hwr⟩ := hwn
    rcases mem_append.mp hw with hw | hw
    · exact ⟨w, hw, hwr⟩
    · rw [mem_singleton.mp hw] at hwr
      exact absurd hwr hla

end Orchestratord.Foundation
