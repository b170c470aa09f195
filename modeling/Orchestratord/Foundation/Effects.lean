import Mathlib

/-! # Effects

Fallible computations over an explicit state. An error keeps the state that was
reached before it, as an exception does not undo the writes made so far.

`Respects R m` is the frame rule of these computations: from every state, `m` ends
in an `R`-related one, whether it returns or throws. -/

namespace Orchestratord.Foundation

open MonadExcept

variable {ε ε' σ α β : Type}

abbrev Eff (ε σ : Type) := ExceptT ε (StateM σ)

namespace Eff

variable (m : Eff ε σ α)

/-- The result of `m` from `s`, and the state it leaves. -/
def exec (s : σ) : Except ε α × σ := m.run.run s

/-- The state `m` leaves when it starts in `s`. -/
def after (s : σ) : σ := (m.exec s).2

/-- Translate the errors of `m`. -/
def mapError (f : ε → ε') (m : Eff ε σ α) : Eff ε' σ α := ExceptT.adapt f m

/-- Run `m` and discard its error. -/
def ignoreErrors (m : Eff ε σ Unit) : Eff ε' σ Unit := ExceptT.mk (do let _ ← m.run; pure (.ok ()))

/-- Run `m` if `c` holds. -/
def when (m : Eff ε σ Unit) (c : Bool) : Eff ε σ Unit := if c then m else Pure.pure ()

@[simp] theorem exec_pure (a : α) (s : σ) : (Pure.pure a : Eff ε σ α).exec s = (.ok a, s) := rfl

@[simp] theorem exec_throw (e : ε) (s : σ) : (throw e : Eff ε σ α).exec s = (.error e, s) := rfl

@[simp] theorem exec_get (s : σ) : (MonadState.get : Eff ε σ σ).exec s = (.ok s, s) := rfl

@[simp] theorem exec_set (s s' : σ) :
    (MonadStateOf.set s' : Eff ε σ PUnit).exec s = (.ok ⟨⟩, s') := rfl

theorem exec_bind (f : α → Eff ε σ β) (s : σ) : (m >>= f).exec s = match m.exec s with
      | (.ok a, s') => (f a).exec s'
      | (.error e, s') => (.error e, s') := by
  simp only [exec, ExceptT.run_bind, StateT.run_bind]
  rcases StateT.run m.run s with ⟨e | a, s'⟩
  · rfl
  · rfl

/-- A sequence returns exactly when both of its parts do. -/
theorem exec_bind_ok {m : Eff ε σ α} {f : α → Eff ε σ β} {s s'' : σ} {b : β} :
    (m >>= f).exec s = (.ok b, s'') ↔
      ∃ a s', m.exec s = (.ok a, s') ∧ (f a).exec s' = (.ok b, s'') := by
  rw [exec_bind]
  rcases m.exec s with ⟨e | a, s'⟩
  · simp
  constructor
  · intro h
    exact ⟨a, s', rfl, h⟩
  · rintro ⟨a', t, heq, h⟩
    cases heq
    exact h

theorem exec_tryCatch (han : ε → Eff ε σ α) (s : σ) : (tryCatch m han).exec s = match m.exec s with
      | (.ok a, s') => (.ok a, s')
      | (.error e, s') => (han e).exec s' := by
  simp only [exec, ExceptT.run_tryCatch, StateT.run_bind]
  rcases StateT.run m.run s with ⟨e | a, s'⟩
  · rfl
  · rfl

theorem exec_mapError (f : ε → ε') (m : Eff ε σ α) (s : σ) :
    (m.mapError f).exec s = ((m.exec s).1.mapError f, (m.exec s).2) := rfl

end Eff

/-- Whatever its outcome, `m` leaves a state related to the one it started in. -/
def Respects (R : σ → σ → Prop) (m : Eff ε σ α) : Prop := ∀ s, R s (m.after s)

namespace Respects

variable {R : σ → σ → Prop} {m : Eff ε σ α}

theorem ite {c : Prop} [Decidable c] {n : Eff ε σ α} (hm : Respects R m) (hn : Respects R n) :
    Respects R (if c then m else n) := by
  split
  · exact hm
  · exact hn

theorem mapError {f : ε → ε'} (hm : Respects R m) : Respects R (m.mapError f) := fun s => hm s

theorem ignoreErrors {m : Eff ε σ Unit} (hm : Respects R m) :
    Respects R (m.ignoreErrors : Eff ε' σ Unit) :=
  fun s => hm s

variable [IsPreorder σ R]

theorem pure (a : α) : Respects R (Pure.pure a : Eff ε σ α) := fun s => refl_of R s

theorem when {c : Bool} {m : Eff ε σ Unit} (hm : Respects R m) : Respects R (m.when c) :=
  .ite hm (.pure ())

theorem throw (e : ε) : Respects R (throw e : Eff ε σ α) := fun s => refl_of R s

theorem get : Respects R (MonadState.get : Eff ε σ σ) := fun s => refl_of R s

/-- The rule of sequencing: a throw in the first part skips the second, and
reflexivity covers that case. -/
theorem bind {f : α → Eff ε σ β} (hm : Respects R m) (hf : ∀ a, Respects R (f a)) :
    Respects R (m >>= f) := by
  intro s
  have hfi := hm s
  simp only [Eff.after, Eff.exec_bind] at hfi ⊢
  generalize m.exec s = outcome at hfi ⊢
  rcases outcome with ⟨e | a, s'⟩
  · exact hfi
  · exact trans_of R hfi (hf a s')

theorem tryCatch {han : ε → Eff ε σ α} (hm : Respects R m)
    (hh : ∀ e, Respects R (han e)) : Respects R (tryCatch m han) := by
  intro s
  have hfi := hm s
  simp only [Eff.after, Eff.exec_tryCatch] at hfi ⊢
  generalize m.exec s = outcome at hfi ⊢
  rcases outcome with ⟨e | a, s'⟩
  · exact trans_of R hfi (hh e s')
  · exact hfi

theorem forM {l : List α} {f : α → Eff ε σ PUnit} (hf : ∀ a ∈ l, Respects R (f a)) :
    Respects R (l.forM f) := by
  induction l with
  | nil => exact .pure PUnit.unit
  | cons a rest ih =>
    show Respects R (f a >>= fun _ => rest.forM f)
    apply bind (hf a (by simp))
    intro _
    exact ih fun b hb => hf b (by simp [hb])

end Respects

end Orchestratord.Foundation
