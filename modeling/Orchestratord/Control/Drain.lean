import Orchestratord.Foundation.Runs

/-! # A batch of control commands

The runner works through the commands that wait on the control socket, one after the other. -/

namespace Orchestratord.Control.Drain

open Foundation List

inductive Command where
  | pause
  | resume (payload : String)
  | stop
  | takeover
  | inject (payload : String)
  | followup (payload : String)
  | detach
  | flushTranscript
  deriving DecidableEq

/-- An event is there or not, and set or not. -/
structure Session where
  controlSocket : Bool := true
  status : String := "running"
  paused : Bool := false
  pauseReason : String := ""
  pauseResumeEvent : Option Bool := none
  pauseGate : Option Bool := none
  promptOverride : Option String := none
  pendingFollowups : List String := []
  sessionEndReason : Option String := none
  sessionEndSummary : String := ""
  deriving DecidableEq

namespace Session

variable (s : Session)

def applyPauseSession (reason : String) : Session :=
  { s with
    paused := true
    pauseReason := reason
    pauseResumeEvent := s.pauseResumeEvent.map fun _ => false
    pauseGate := s.pauseGate.map fun _ => false }

def applyResumeSession (promptOverride : String) : Session :=
  { s with
    promptOverride := if promptOverride = "" then s.promptOverride else some promptOverride
    paused := false
    pauseReason := ""
    pauseResumeEvent := s.pauseResumeEvent.map fun _ => true
    pauseGate := s.pauseGate.map fun _ => true }

def handle (s : Session × Bool) : Command → Session × Bool
  | .pause => (s.1.applyPauseSession "operator_interrupt", s.2)
  | .resume payload => (s.1.applyResumeSession payload, s.2)
  | .stop =>
    ({ s.1 with
        paused := false
        pauseReason := ""
        status := "failed"
        sessionEndReason := some "operator_stop"
        sessionEndSummary := "operator sent stop via control socket"
        pauseResumeEvent := s.1.pauseResumeEvent.map fun _ => true }, true)
  | .takeover =>
    ({ s.1 with
        status := "failed"
        sessionEndReason := some "operator_takeover"
        sessionEndSummary := "operator requested takeover via control socket" }, true)
  | .inject payload | .followup payload =>
    ({ s.1 with pendingFollowups := s.1.pendingFollowups ++ [payload] }, s.2)
  | .detach | .flushTranscript => s

/-- With `true` the caller has to end the session. -/
def drainControlCommands (commands : List Command) : Session × Bool :=
  if s.controlSocket then commands.foldl handle (s, false) else (s, false)

/-- It does not go on: it is paused, or its resume event is not set. -/
def held : Bool := s.paused || s.pauseResumeEvent = some false

/-- The reason with which the command ends the session. -/
def endReason : Command → Option String
  | .stop => some "operator_stop"
  | .takeover => some "operator_takeover"
  | _ => none

/-- Whether the command holds the session or lets it go on, if it does either. -/
def holds : Command → Option Bool
  | .pause => some true
  | .resume _ | .stop => some false
  | _ => none

/-- The session ends, is not held, and has the reason of the last command that ends it. -/
structure Ended (commands : List Command) (out : Session × Bool) : Prop where
  reported : out.2 = true
  goesOn : out.1.held = false
  reason : out.1.sessionEndReason = (commands.filterMap endReason).getLast?

variable (commands : List Command)

theorem held_drain (h : s.controlSocket = true) : (s.drainControlCommands commands).1.held =
    (commands.filterMap holds).getLast?.getD s.held := by
  rw [drainControlCommands, if_pos h]
  refine foldl_last_set (fun s : Session × Bool => s.1.held) (fun s c => ?_) commands (s, false)
  cases c with
  | resume | stop => cases hev : s.1.pauseResumeEvent <;>
      simp [handle, applyResumeSession, held, holds, hev]
  | _ => rfl

theorem ended_drain (h : s.controlSocket = true) :
    ((s.drainControlCommands commands).1.sessionEndReason, (s.drainControlCommands commands).2) =
      ((commands.filterMap endReason).map fun r => (some r, true)).getLast?.getD
        (s.sessionEndReason, false) := by
  rw [drainControlCommands, if_pos h, map_filterMap]
  refine foldl_last_set (fun s : Session × Bool => (s.1.sessionEndReason, s.2)) (fun s c => ?_)
    commands (s, false)
  cases c with
  | _ => rfl

/-- **A batch with a stop or a takeover ends the session if and only if there is a socket and the
last command that holds the session or lets it go on lets it go on; without such a command the
session must not have been held before.** -/
theorem ended_drain_iff (h : ∃ c ∈ commands, (endReason c).isSome) :
    Ended commands (s.drainControlCommands commands) ↔ s.controlSocket = true ∧
      (commands.filterMap holds).getLast?.getD s.held = false := by
  by_cases hso : s.controlSocket = true
  · have hen := ended_drain s commands hso
    obtain ⟨r, hr⟩ : ∃ r, (commands.filterMap endReason).getLast? = some r := by
      obtain ⟨c, hc, hre⟩ := h
      obtain ⟨r, hr⟩ := Option.isSome_iff_exists.mp hre
      exact Option.isSome_iff_exists.mp (getLast?_isSome.mpr
        (ne_nil_of_mem (mem_filterMap.mpr ⟨c, hc, hr⟩)))
    rw [getLast?_map, hr] at hen
    obtain ⟨hre, hst⟩ := Prod.mk.inj hen
    rw [← held_drain s commands hso]
    exact ⟨fun h => ⟨hso, h.goesOn⟩, fun hgo => ⟨hst, hgo.2, hre.trans hr.symm⟩⟩
  · refine iff_of_false (fun hen => ?_) fun hgo => hso hgo.1
    have := hen.reported
    rw [drainControlCommands, if_neg hso] at this
    cases this

/-- A stop ends a session that the batch has paused before. -/
theorem pause_stop_ended : Ended [.pause, .stop] (drainControlCommands
    { pauseResumeEvent := some true } [.pause, .stop]) :=
  (ended_drain_iff _ _ ⟨.stop, by decide, rfl⟩).mpr ⟨rfl, rfl⟩

/-- A takeover leaves a paused session waiting, and a pause after a stop holds it again. -/
theorem held_after_takeover_and_stop : ¬ Ended [.takeover] (drainControlCommands
        { paused := true, pauseResumeEvent := some false } [.takeover]) ∧
      ¬ Ended [.stop, .pause] (drainControlCommands
        { pauseResumeEvent := some true } [.stop, .pause]) :=
  ⟨fun h => Bool.noConfusion h.goesOn, fun h => Bool.noConfusion h.goesOn⟩

end Session

end Orchestratord.Control.Drain
