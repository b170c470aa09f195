import Orchestratord.Foundation.Runs

/-! # Storing the turns of a chat

The bridge folds the runner's callbacks into one assistant message per turn. A callback that closes
a turn only schedules a flush. Flushes are tasks over one buffer and one pending terminal event:
they start in the order in which they were created, commit and end, with anything in between. -/

namespace Orchestratord.Chat

open Foundation List

inductive Terminal where
  | turnComplete
  | sessionComplete
  | error (message : String)

/-- A terminal frame: the texts of the turns up to its own, and the rows when it is published. -/
structure Frame where
  event : Terminal
  turns : List String
  seen : List String

structure Bridge where
  buffer : String := ""
  /-- How many flushes have not started. -/
  scheduled : Nat := 0
  /-- The flushes that have: the message each inserts, `none` once it is committed. -/
  flushing : List (Option String) := []
  terminalEvent : Option (Terminal × List String) := none
  /-- The assistant messages of the session by number. -/
  rows : List String := []
  frames : List Frame := []
  /-- The texts of the closed turns, and of the one that is open. -/
  turns : List String := []
  current : String := ""

namespace Bridge

inductive Input where
  | text (text : String)
  | terminal (event : Terminal)
  /-- The runner exits. -/
  | flush
  | start
  /-- A flush commits, or ends. -/
  | advance (k : Nat)

variable (b : Bridge)

def schedule : Bridge :=
  { b with scheduled := b.scheduled + 1, turns := b.turns ++ [b.current], current := "" }

def publish : Bridge :=
  match b.terminalEvent with
  | none => b
  | some (event, turns) =>
    { b with terminalEvent := none, frames := b.frames ++ [⟨event, turns, b.rows⟩] }

/-- Up to the first `await`; a flush that finds no text has none. -/
def flushTurn : Bridge :=
  if b.scheduled = 0 then b
  else
    let started := { b with buffer := "", scheduled := b.scheduled - 1 }
    if b.buffer = "" then started.publish
    else { started with flushing := b.flushing ++ [some b.buffer] }

def advance (k : Nat) : Bridge :=
  match b.flushing[k]? with
  | none => b
  | some none => publish { b with flushing := b.flushing.eraseIdx k }
  | some (some content) => { b with flushing := b.flushing.set k none, rows := b.rows ++ [content] }

def step : Input → Bridge
  | .text text => { b with buffer := b.buffer ++ text, current := b.current ++ text }
  | .terminal event => { b.schedule with terminalEvent := some (event, b.turns ++ [b.current]) }
  | .flush => if b.buffer = "" then b else b.schedule
  | .start => b.flushTurn
  | .advance k => b.advance k

/-- One message for each turn that is not empty. -/
def messages (turns : List String) : List String := turns.filter (· ≠ "")

structure Faithful : Prop where
  inOrder : b.rows <+: messages b.turns
  complete : b.scheduled = 0 → b.flushing = [] → b.rows = messages b.turns
  published : ∀ frame ∈ b.frames, messages frame.turns <+: frame.seen

/-- Text arrives when no flush is left to start, and a turn is closed when none is left to end. -/
def OneFlush : Input → Prop
  | .text _ => b.scheduled = 0
  | .terminal _ => b.scheduled = 0 ∧ b.flushing = []
  | .flush => b.buffer ≠ "" → b.scheduled = 0 ∧ b.flushing = []
  | _ => True

/-- What the flush that is not over has still to store. -/
def owed : List String :=
  b.flushing.filterMap id ++ if b.scheduled = 0 then [] else messages [b.buffer]

structure Orderly : Prop where
  one : b.flushing.length + b.scheduled ≤ 1
  stored : b.rows ++ b.owed = messages b.turns
  current : b.current = if b.scheduled = 0 then b.buffer else ""
  due : ∀ pending ∈ b.terminalEvent, pending.2 <+: b.turns
  frames : ∀ frame ∈ b.frames, messages frame.turns <+: frame.seen

namespace Orderly

variable {b} (h : b.Orderly)
include h

theorem faithful : b.Faithful :=
  ⟨⟨b.owed, h.stored⟩, fun hsc hfl => by simpa [owed, hsc, hfl] using h.stored, h.frames⟩

theorem publish (how : b.owed = []) : b.publish.Orderly := by
  unfold Bridge.publish
  split
  · exact h
  rename_i hev
  refine { h with due := nofun, frames := ?_ }
  intro frame hfr
  rcases mem_append.mp hfr with hfr | hfr
  · exact h.frames frame hfr
  · obtain rfl := mem_singleton.mp hfr
    have hro : b.rows = messages b.turns := by simpa [how] using h.stored
    exact hro ▸ (h.due _ hev).filter _

theorem schedule (hid : b.scheduled = 0 ∧ b.flushing = []) : b.schedule.Orderly where
  one := by simp [Bridge.schedule, hid]
  stored := by
    have hro : b.rows = messages b.turns := h.faithful.complete hid.1 hid.2
    have hcu : b.current = b.buffer := by simpa [hid] using h.current
    simp [Bridge.schedule, owed, hid, hro, hcu, messages]
  current := by simp [Bridge.schedule]
  due pending hpe := (h.due pending hpe).trans (prefix_append ..)
  frames := h.frames

theorem flushTurn : b.flushTurn.Orderly := by
  obtain ⟨hle, hst, hcu, hdu, hfr⟩ := h
  unfold Bridge.flushTurn
  split
  · exact ⟨hle, hst, hcu, hdu, hfr⟩
  obtain ⟨hfl, hon⟩ : b.flushing = [] ∧ b.scheduled = 1 :=
    ⟨length_eq_zero_iff.mp (by omega), by omega⟩
  split
  · rename_i hem
    refine publish ⟨by simp [hfl, hon], ?_, by simpa [hon] using hcu, hdu, hfr⟩
      (by simp [owed, hfl, hon])
    simpa [owed, hfl, hon, hem, messages] using hst
  · rename_i hem
    refine ⟨by simp [hfl, hon], ?_, by simpa [hon] using hcu, hdu, hfr⟩
    simpa [owed, hfl, hon, hem, messages] using hst

theorem advance (k : Nat) : (b.advance k).Orderly := by
  obtain ⟨hle, hst, hcu, hdu, hfr⟩ := h
  unfold Bridge.advance
  split
  · exact ⟨hle, hst, hcu, hdu, hfr⟩
  all_goals
    rename_i hk
    have hlt := (List.getElem?_eq_some_iff.mp hk).1
    obtain ⟨x, hfl⟩ := length_eq_one_iff.mp (show b.flushing.length = 1 by omega)
    obtain ⟨rfl, hsc⟩ : k = 0 ∧ b.scheduled = 0 := by omega
    obtain rfl : x = _ := by simpa [hfl] using hk
  · refine publish ⟨by simp [hfl, hsc], ?_, hcu, hdu, hfr⟩ (by simp [owed, hfl, hsc])
    simpa [owed, hfl, hsc] using hst
  · refine ⟨by simp [hfl, hsc], ?_, hcu, hdu, hfr⟩
    simpa [owed, hfl, hsc] using hst

theorem step {input : Input} (hok : b.OneFlush input) : (b.step input).Orderly := by
  cases input with
  | text text =>
    obtain ⟨hle, hst, hcu, hdu, hfr⟩ := h
    replace hok : b.scheduled = 0 := hok
    refine ⟨hle, ?_, by simp [Bridge.step, hcu, hok], hdu, hfr⟩
    simpa [Bridge.step, owed, hok] using hst
  | terminal event =>
    have hsc := h.schedule hok
    refine { hsc with due := ?_ }
    rintro pending ⟨⟩
    exact prefix_rfl
  | flush =>
    show (if _ then _ else _ : Bridge).Orderly
    split
    · exact h
    · exact h.schedule (hok ‹_›)
  | start => exact h.flushTurn
  | advance k => exact h.advance k

end Orderly

/-- While no flush overlaps with the callbacks of the next turn, the messages are the turns, and a
frame is published after the rows of its turn. -/
theorem faithful_of_oneFlush (inputs : List Input) (hrun : Guarded step OneFlush {} inputs) :
    (runFrom step {} inputs).Faithful := by
  have hor : (runFrom step {} inputs).Orderly :=
    hrun.invariant (fun _ _ h => h.step) ⟨by decide, rfl, rfl, nofun, nofun⟩
  exact hor.faithful

theorem faithful_two_turns : (runFrom step {} [.text "a", .terminal .turnComplete, .start,
    .text "b", .advance 0, .advance 0, .terminal .sessionComplete]).Faithful :=
  faithful_of_oneFlush _ (by simp [Guarded, OneFlush, step, schedule, flushTurn, advance, publish])

/-- Text that arrives before the flush starts joins the earlier message; the flush that the exit
adds finds no text and publishes the frame before the row is committed. -/
theorem turns_merged_and_frame_early :
    ¬ (runFrom step {} [.text "a", .terminal .turnComplete, .text "b", .start,
      .advance 0]).Faithful ∧
    ¬ (runFrom step {} [.text "a", .terminal .sessionComplete, .flush, .start, .start]).Faithful := by
  constructor
  · intro h
    exact absurd h.inOrder (by decide)
  · intro h
    exact absurd (h.published ⟨.sessionComplete, ["a"], []⟩ (mem_singleton.mpr rfl)) (by decide)

end Bridge

end Orchestratord.Chat
