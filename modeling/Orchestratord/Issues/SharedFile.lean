import Orchestratord.Foundation.WriteLog
import Orchestratord.Issues.Record

/-! # The registry file and the processes that share it

Every process loads the whole file once, when it makes its registry, and writes the whole of its
own copy back with each operation. The daemon does so for as long as it runs, a command for as
long as it takes. -/

namespace Orchestratord.Issues

open Foundation Function List

/-! ## §1 Processes -/

inductive ProcessId where
  | daemon
  | cli (n : ℕ)
  deriving DecidableEq, Repr

structure Process where
  records : Registry
  lastDiagnosticsSave : Time := 0
  pendingDiagnosticsSave : Bool := false

/-- A completed operation, and the copy of the registry on which it was made. -/
structure Completed where
  before : Registry
  now : Time
  operation : Operation

def Completed.after (e : Completed) : Registry := e.before.operate e.now e.operation

structure SharedFile where
  /-- A file that is missing is an empty registry. -/
  file : Registry
  processes : ProcessId → Option Process := fun _ => none
  log : List Completed := []

inductive Persistence where
  | none
  | durable
  | throttled
  deriving DecidableEq, Repr

/-- What an operation does about the file. One that does not find its record, or nothing to do,
leaves it alone; only diagnostics that do not name a run are throttled. -/
def Registry.persistence (r : Registry) (now : Time) : Operation → Persistence
  | .register _ _ => .durable
  | .inPlace id operation =>
    match r.get id with
    | none => .none
    | some record =>
      match operation with
      | .clearRetryPlan => if record.nextRetryAt.isNone then .none else .durable
      | .clearStalePending timeoutMs =>
        match record.feedback.pendingIds, record.feedback.pendingSince with
        | [], _ | _, none => .none
        | _ :: _, some since => if now < since + timeoutMs then .none else .durable
      | .updateRunDiagnostics u => if u.runId.isSome then .durable else .throttled
      | _ => .durable

def diagnosticsMinSaveIntervalMs : ℕ := 2000

/-- The operation gets as far as replacing the file. -/
def Process.saves (process : Process) (operation : Operation) (now monotonic : Time)
    (written : Bool) : Bool :=
  written && match process.records.persistence now operation with
    | .none => false
    | .durable => true
    | .throttled => process.lastDiagnosticsSave + diagnosticsMinSaveIntervalMs ≤ monotonic

/-- The process after an operation. -/
def Process.operate (process : Process) (operation : Operation) (now monotonic : Time)
    (written : Bool) : Process :=
  { records := process.records.operate now operation
    lastDiagnosticsSave := if process.saves operation now monotonic written then monotonic
      else process.lastDiagnosticsSave
    pendingDiagnosticsSave :=
      if process.saves operation now monotonic written then false
      else process.pendingDiagnosticsSave ||
        (process.records.persistence now operation = .throttled &&
          monotonic < process.lastDiagnosticsSave + diagnosticsMinSaveIntervalMs) }

inductive RegistryStep where
  /-- The process makes its registry, and loads the file. -/
  | start (p : ProcessId)
  | stop (p : ProcessId)
  /-- `written` says whether the disk takes the file. -/
  | operate (p : ProcessId) (operation : Operation) (now monotonic : Time) (written : Bool)
  | flush (p : ProcessId) (monotonic : Time) (written : Bool)

namespace SharedFile

def step (s : SharedFile) : RegistryStep → SharedFile
  | .start p => { s with processes := update s.processes p (some { records := s.file }) }
  | .stop p => { s with processes := update s.processes p none }
  | .operate p operation now monotonic written =>
    match s.processes p with
    | none => s
    | some process =>
      let next := process.operate operation now monotonic written
      { file := if process.saves operation now monotonic written then next.records else s.file
        processes := update s.processes p (some next)
        log := s.log ++ [{ before := process.records, now, operation }] }
  | .flush p monotonic written =>
    match s.processes p with
    | none => s
    | some process =>
      if process.pendingDiagnosticsSave && written then
        { s with
          file := process.records
          processes := update s.processes p (some { process with
            lastDiagnosticsSave := monotonic, pendingDiagnosticsSave := false }) }
      else s

end SharedFile

/-! ## §2 Updates that are kept -/

/-- The fields of a record, and the fields an operation writes: at least those it changes. -/
structure Fields where
  Name : Type
  Value : Name → Type
  get : (f : Name) → IssueRecord → Value f
  writes : Completed → IssueId → Name → Prop
  covers : ∀ e id f, (e.after.get id).map (get f) ≠ (e.before.get id).map (get f) → writes e id f

variable {e : Completed}

namespace Fields

variable (F : Fields)

abbrev Cell : Type := IssueId × F.Name

abbrev CellValue (c : F.Cell) : Type := Option (F.Value c.2)

/-- A field of an issue in a copy of the registry. -/
def view (r : Registry) (c : F.Cell) : F.CellValue c := (r.get c.1).map (F.get c.2)

/-- A completed operation as a write. -/
def write (e : Completed) : Write F.Cell F.CellValue where
  writes c := F.writes e c.1 c.2
  after := F.view e.after

theorem view_after {c : F.Cell} (h : ¬ (F.write e).writes c) :
    F.view e.after c = F.view e.before c := by
  by_contra hne
  exact h (F.covers e c.1 c.2 hne)

end Fields

namespace SharedFile

variable (F : Fields) (s : SharedFile)

/-- The effect of every completed operation is in the file, and in the daemon's own copy, unless
a later operation wrote the same field of the same issue. -/
def UpdatesKept : Prop :=
  Present (s.log.map F.write) (F.view s.file) ∧
    ∀ d, s.processes .daemon = some d → Present (s.log.map F.write) (F.view d.records)

/-- The process that makes an operation agrees with the file on all that the operation does not
write, the file takes what it writes, and so has the daemon if it is another process. -/
def Coherent : RegistryStep → Prop
  | .operate p operation now monotonic written => ∀ process, s.processes p = some process →
    let e : Completed := { before := process.records, now, operation }
    (∀ c, if process.saves operation now monotonic written then
        (F.write e).writes c ∨ F.view process.records c = F.view s.file c
      else (F.write e).writes c → F.view s.file c = F.view e.after c) ∧
    (p ≠ .daemon → ∀ d, s.processes .daemon = some d →
      ∀ c, (F.write e).writes c → F.view d.records c = F.view e.after c)
  | .flush p _ written => ∀ process, s.processes p = some process →
    process.pendingDiagnosticsSave = true → written = true →
      ∀ c, F.view process.records c = F.view s.file c
  | _ => True

/-- Copies differ from the file only in what was written. -/
def SameUnwritten : Prop :=
  ∀ c, (∀ w ∈ s.log.map F.write, ¬ w.writes c) →
    ∀ p process, s.processes p = some process → F.view process.records c = F.view s.file c

variable {F} {s : SharedFile} {process : Process} {p : ProcessId} {next : Process}

theorem update_eq_some {q : ProcessId} {processes : ProcessId → Option Process}
    (h : update processes p (some next) q = some process) :
    q = p ∧ process = next ∨ q ≠ p ∧ processes q = some process := by
  by_cases hq : q = p
  · subst hq
    rw [update_self] at h
    exact .inl ⟨rfl, (Option.some.inj h).symm⟩
  · rw [update_of_ne hq] at h
    exact .inr ⟨hq, h⟩

variable (h : SameUnwritten F s)

include h

theorem SameUnwritten.step (i : RegistryStep) : SameUnwritten F (s.step i) := by
  intro c hc q process hpr
  cases i with
  | start =>
    rcases update_eq_some hpr with ⟨-, rfl⟩ | ⟨-, hold⟩
    · rfl
    · exact h c hc q process hold
  | stop p =>
    by_cases hq : q = p
    · subst hq
      simp [SharedFile.step] at hpr
    · exact h c hc q process (by simpa [SharedFile.step, hq] using hpr)
  | operate p operation now monotonic written =>
    dsimp only [SharedFile.step] at hc hpr ⊢
    cases hp : s.processes p with
    | none =>
      rw [hp] at hc hpr
      exact h c hc q process hpr
    | some actor =>
      rw [hp] at hc hpr
      simp only [map_append, map_cons, map_nil, mem_append, mem_singleton] at hc
      have hlog := fun w hw => hc w (.inl hw)
      -- an operation that does not write the cell leaves it as it was
      have haf := F.view_after (hc _ (.inr rfl))
      have hac := h c hlog p actor hp
      have hfi : F.view (if actor.saves operation now monotonic written then
          (actor.operate operation now monotonic written).records else s.file) c =
          F.view s.file c := by
        split
        · exact haf.trans hac
        · rfl
      rw [hfi]
      rcases update_eq_some hpr with ⟨-, rfl⟩ | ⟨-, hold⟩
      · exact haf.trans hac
      · exact h c hlog q process hold
  | flush p =>
    dsimp only [SharedFile.step] at hc hpr ⊢
    cases hp : s.processes p with
    | none =>
      rw [hp] at hc hpr
      exact h c hc q process hpr
    | some actor =>
      rw [hp] at hc hpr
      dsimp only at hc hpr ⊢
      split at hpr
      · rename_i hsa
        rw [if_pos hsa] at hc ⊢
        have hac := h c hc p actor hp
        rcases update_eq_some hpr with ⟨-, rfl⟩ | ⟨-, hold⟩
        · rfl
        · exact (h c hc q process hold).trans hac.symm
      · rename_i hsa
        rw [if_neg hsa] at hc ⊢
        exact h c hc q process hpr

section

variable (hke : UpdatesKept F s) (hp : s.processes p = some process)

include hke hp

/-- While the file is right, a copy of it is right exactly where it is the same. -/
theorem SameUnwritten.presentAt_iff (c : F.Cell) :
    PresentAt (s.log.map F.write) c (F.view process.records c) ↔
      F.view process.records c = F.view s.file c := by
  constructor
  · intro hco
    by_cases hwr : ∃ w ∈ s.log.map F.write, w.writes c
    · exact hco.unique (hke.1 c) hwr
    · push Not at hwr
      exact h c hwr p process hp
  · intro hsa
    rw [hsa]
    exact hke.1 c

theorem SameUnwritten.flush_iff (hne : next.records = process.records) : UpdatesKept F { s with
        file := process.records, processes := update s.processes p (some next) } ↔
      ∀ c, F.view process.records c = F.view s.file c := by
  constructor
  · intro hfl c
    exact (h.presentAt_iff hke hp c).mp (hfl.1 c)
  intro hsa
  refine ⟨fun c => (h.presentAt_iff hke hp c).mpr (hsa c), ?_⟩
  intro d hd
  rcases update_eq_some hd with ⟨-, rfl⟩ | ⟨-, hold⟩
  · intro c
    rw [hne]
    exact (h.presentAt_iff hke hp c).mpr (hsa c)
  · exact hke.2 d hold

/-- The file's part of an operation. -/
theorem SameUnwritten.operate_file_iff (he : e.before = process.records) (saves : Bool) :
    Present ((s.log ++ [e]).map F.write) (F.view (if saves then e.after else s.file)) ↔
      ∀ c, if saves then (F.write e).writes c ∨ F.view process.records c = F.view s.file c
        else (F.write e).writes c → F.view s.file c = F.view e.after c := by
  rw [map_append]
  rcases saves with _ | _
  · exact present_concat_iff hke.1
  refine present_concat_after_iff.trans (forall_congr' fun c => ?_)
  rw [or_iff_not_imp_left]
  refine imp_congr_right fun hc => ?_
  rw [← h.presentAt_iff hke hp c, ← he, ← F.view_after hc]
  rfl

omit h in
/-- The daemon's part of an operation: its own are in its copy, those of the others are not. -/
theorem operate_daemon_iff (he : e.before = process.records) (hnx : next.records = e.after) :
    (∀ d, update s.processes p (some next) .daemon = some d →
        Present ((s.log ++ [e]).map F.write) (F.view d.records)) ↔
      (p ≠ .daemon → ∀ d, s.processes .daemon = some d →
        ∀ c, (F.write e).writes c → F.view d.records c = F.view e.after c) := by
  rw [map_append]
  by_cases hda : p = .daemon
  · subst hda
    refine iff_of_true ?_ (fun hne => absurd rfl hne)
    intro d hd
    rw [← Option.some.inj hd, hnx]
    refine present_concat_after_iff.mpr fun c hc => ?_
    have hbe := hke.2 process hp c
    rwa [← he, ← F.view_after hc] at hbe
  · rw [update_of_ne (symm hda)]
    constructor
    · intro hpr _ d hd
      exact (present_concat_iff (hke.2 d hd)).mp (hpr d hd)
    · intro hwr d hd
      exact (present_concat_iff (hke.2 d hd)).mpr (hwr hda d hd)

end

/-- One step keeps every update exactly if it is coherent. -/
theorem SameUnwritten.step_iff (hke : UpdatesKept F s)
    (i : RegistryStep) : UpdatesKept F (s.step i) ↔ Coherent F s i := by
  cases i with
  | start =>
    refine iff_of_true ⟨hke.1, ?_⟩ trivial
    intro d hd
    rcases update_eq_some hd with ⟨-, rfl⟩ | ⟨-, hold⟩
    · exact hke.1
    · exact hke.2 d hold
  | stop p =>
    refine iff_of_true ⟨hke.1, ?_⟩ trivial
    intro d hd
    apply hke.2 d
    by_cases hp : p = .daemon
    · subst hp
      simp [SharedFile.step] at hd
    · simpa [SharedFile.step, Ne.symm hp] using hd
  | operate p =>
    dsimp only [SharedFile.step, Coherent]
    cases hp : s.processes p with
    | none => exact iff_of_true hke (nofun)
    | some =>
      simp only [Option.some.injEq, forall_eq']
      exact and_congr (h.operate_file_iff hke hp rfl _) (operate_daemon_iff hke hp rfl rfl)
  | flush p _ written =>
    dsimp only [SharedFile.step, Coherent]
    rcases hp : s.processes p with _ | process
    · exact iff_of_true hke (nofun)
    simp only [Option.some.injEq, forall_eq']
    by_cases hsa : (process.pendingDiagnosticsSave && written) = true
    · rw [if_pos hsa]
      obtain ⟨hpe, hwr⟩ := Bool.and_eq_true_iff.mp hsa
      refine (h.flush_iff hke hp (by rfl)).trans ?_
      exact ⟨fun hsm _ _ => hsm, fun hall => hall hpe hwr⟩
    · rw [if_neg hsa]
      refine iff_of_true hke fun hpe hwr => ?_
      exact absurd (Bool.and_eq_true_iff.mpr ⟨hpe, hwr⟩) hsa

omit h

/-! ## §3 Runs -/

/-- From any file, no update is ever lost exactly in the runs whose steps are all coherent. -/
theorem updatesKept_iff_coherent (F : Fields) (file : Registry) (steps : List RegistryStep) :
    Guarded step (Coherent F) { file } steps ↔
      ∀ done, done <+: steps → UpdatesKept F (runFrom step { file } done) := by
  have hsa : ∀ s i, SameUnwritten F s → SameUnwritten F (step s i) := fun _ i h => h.step i
  refine Guarded.iff_throughout hsa (fun s i h hke => h.step_iff hke i) ?_ ⟨?_, ?_⟩
  · rintro c _ p process ⟨⟩
  · intro c
    exact presentAt_nil
  · rintro d ⟨⟩

/-- In every run, whatever is saved, throttled or lost: what no operation has written is the same
in every process as in the file. -/
theorem unwritten_agree (F : Fields) (file : Registry) (steps : List RegistryStep) :
    SameUnwritten F (runFrom step { file } steps) :=
  Guarded.always (fun _ i h => h.step i) (by rintro _ _ _ _ ⟨⟩) steps

/-- The status alone, written where it changes. -/
def statusField : Fields where
  Name := Unit
  Value _ := Daemon.IssueStatus
  get _ record := record.status
  writes e id _ := e.after.statusOf id ≠ e.before.statusOf id
  covers _ _ _ h := h

/-- One issue that was given up, one that waits. -/
def twoIssues : Registry :=
  let record (id : IssueId) (status : Daemon.IssueStatus) : IssueRecord :=
    { issueId := id, issueIdentifier := id, status, createdAt := 0, updatedAt := 0 }
  (Dict.empty.set "7" (record "7" .abandoned)).set "8" (record "8" .pending)

/-- The daemon runs; a command unblocks one issue and ends. -/
def unblocking : List RegistryStep :=
  [.start .daemon, .start (.cli 0), .operate (.cli 0) (.inPlace "7" .unblock) 1 1 true,
    .stop (.cli 0)]

/-- The daemon goes on to the other issue. -/
def unblockedThenRun : List RegistryStep :=
  unblocking ++ [.operate .daemon (.inPlace "8" .markRunning) 2 2 true]

/-- The unblocked issue is abandoned again as soon as the daemon saves any other one. -/
theorem unblock_overwritten :
    (runFrom step { file := twoIssues } unblocking).file.statusOf "7" = some .pending ∧
      (runFrom step { file := twoIssues } unblockedThenRun).file.statusOf "7" = some .abandoned ∧
      ¬ UpdatesKept statusField (runFrom step { file := twoIssues } unblockedThenRun) := by
  refine ⟨by decide +kernel, by decide +kernel, ?_⟩
  intro hke
  have hlo : (runFrom step { file := twoIssues } unblockedThenRun).file.statusOf "7" =
      some .pending := by
    refine hke.1 ("7", ()) [] _ _ rfl ?_ ?_
    · show (twoIssues.unblock "7" 1).statusOf "7" ≠ twoIssues.statusOf "7"
      decide +kernel
    intro w hw
    rw [mem_singleton.mp hw]
    show ¬ (twoIssues.markRunning "8" 2).statusOf "7" ≠ twoIssues.statusOf "7"
    decide +kernel
  exact absurd hlo (by decide +kernel)

end SharedFile

end Orchestratord.Issues
