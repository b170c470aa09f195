import Orchestratord.Sync.Service

/-! # What is pushed and what was verified

Each gate runs once, on the working tree as the commands before it have left it. The tree
that is pushed is that of a commit, or of a rebased one, so the two can differ. -/

namespace Orchestratord.Sync

open Foundation Eff
open List hiding after

/-! ## Runs of gates -/

/-- The state after a gate has run. -/
def Repo.ran (env : Env) (s : Repo) (gate : Gate) : Repo :=
  { s with
    work := (env.shell gate s.work).tree
    log := s.log ++ [{
      gate
      tree := s.work
      rc := (env.shell gate s.work).rc
      output := (env.shell gate s.work).output }] }

/-- The working tree after some gates. -/
def carried (env : Env) (work : Tree) (gates : List Gate) : Tree :=
  gates.foldl (fun work gate => (env.shell gate work).tree) work

/-- A gate that lets the sync go on. -/
def ShellRun.passes (run : ShellRun) : Prop :=
  run.rc = some 0 ∨ run.rc.isSome ∧ environmentGap run.output

/-- All gates let the sync go on; the guard judges its result by itself. -/
def Passed (env : Env) : Tree → List Gate → Prop
  | _, [] => True
  | work, gate :: rest => (gate ≠ .guard → (env.shell gate work).passes) ∧
      Passed env (env.shell gate work).tree rest

def runsFrom (env : Env) : Tree → List Gate → List Run
  | _, [] => []
  | work, gate :: rest =>
    { gate, tree := work, rc := (env.shell gate work).rc, output := (env.shell gate work).output } ::
      runsFrom env (env.shell gate work).tree rest

theorem passed_append (env : Env) (work : Tree) (first later : List Gate) :
    Passed env work (first ++ later) ↔
      Passed env work first ∧ Passed env (carried env work first) later := by
  induction first generalizing work with
  | nil => simp [Passed, carried]
  | cons _ _ ih =>
    rw [cons_append, Passed, Passed, ih, and_assoc]
    rfl

theorem runsFrom_append (env : Env) (work : Tree) (first later : List Gate) :
    runsFrom env work (first ++ later) =
      runsFrom env work first ++ runsFrom env (carried env work first) later := by
  induction first generalizing work with
  | nil => rfl
  | cons _ _ ih =>
    rw [cons_append, runsFrom, ih]
    rfl

/-- After a list of gates only the working tree and the log are different. -/
theorem foldl_ran (env : Env) (s : Repo) (gates : List Gate) : gates.foldl (.ran env) s =
      { s with work := carried env s.work gates, log := s.log ++ runsFrom env s.work gates } := by
  induction gates generalizing s with
  | nil => simp [carried, runsFrom]
  | cons _ _ ih =>
    rw [foldl_cons, ih]
    simp [Repo.ran, carried, runsFrom]

variable {env : Env} {gates : List Gate} {work : Tree}

theorem mem_runsFrom {run : Run} :
    run ∈ runsFrom env work gates ↔ ∃ before after, gates = before ++ run.gate :: after ∧
      run.tree = carried env work before ∧ run.rc = (env.shell run.gate run.tree).rc ∧
      run.output = (env.shell run.gate run.tree).output := by
  induction gates generalizing work with
  | nil => simp [runsFrom]
  | cons gate rest ih =>
    rw [runsFrom, mem_cons, ih]
    constructor
    · rintro (rfl | ⟨before, after, rfl, htr, hrc⟩)
      · exact ⟨[], rest, rfl, rfl, rfl, rfl⟩
      · exact ⟨gate :: before, after, rfl, htr, hrc⟩
    rintro ⟨before, after, hsp, htr, hrc, hou⟩
    cases before with
    | nil =>
      obtain ⟨rfl, rfl⟩ := cons.inj hsp
      left
      obtain ⟨_, _, _, _⟩ := run
      dsimp only at htr hrc hou
      rw [hrc, hou, htr]
      rfl
    | cons _ before =>
      obtain ⟨rfl, rfl⟩ := cons.inj hsp
      exact .inr ⟨before, after, rfl, htr, hrc, hou⟩

/-! ## Which gates a part of the sync runs -/

/-- If it returns, `m` has run exactly these gates, and they passed. -/
def Executes {α : Type} (env : Env) (gates : List Gate) (m : SyncM α) : Prop :=
  ∀ s a s', m.exec s = (.ok a, s') → s' = gates.foldl (.ran env) s ∧ Passed env s.work gates

variable {α : Type} {cfg : Config} {session : Session} {later : List Gate} {m : SyncM α}

namespace Executes

variable {β : Type}

theorem pure (a : α) : Executes env [] (Pure.pure a : SyncM α) := by
  rintro s b _ ⟨⟩
  exact ⟨rfl, trivial⟩

theorem throw (e : SyncError) : Executes env gates (MonadExcept.throw e : SyncM α) := by
  rintro s b _ ⟨⟩

theorem bind {f : α → SyncM β} (hm : Executes env gates m)
    (hf : ∀ a, Executes env later (f a)) : Executes env (gates ++ later) (m >>= f) := by
  intro s b s'' h
  obtain ⟨a, s', hfi, hse⟩ := exec_bind_ok.mp h
  obtain ⟨rfl, hpa⟩ := hm s a s' hfi
  obtain ⟨rfl, hla⟩ := hf a _ b s'' hse
  refine ⟨(foldl_append).symm, (passed_append env s.work gates later).mpr ⟨hpa, ?_⟩⟩
  rwa [foldl_ran] at hla

theorem mapError (hm : Executes env gates m) (f : SyncError → SyncError) :
    Executes env gates (m.mapError f) := by
  intro s a s' h
  rw [exec_mapError] at h
  apply hm s a s'
  generalize m.exec s = outcome at h ⊢
  rcases outcome with ⟨e | b, t⟩
  · cases h
  · cases h
    rfl

theorem runShellResult (gate : Gate) :
    ∀ s a s', (Sync.runShellResult cfg session env gate).exec s = (.ok a, s') →
      s' = s.ran env gate ∧ (env.shell gate s.work).rc = some a.1 ∧
        (env.shell gate s.work).output = a.2 := by
  intro s a _ h
  obtain ⟨t, _, hget, h⟩ := exec_bind_ok.mp h
  cases hget
  obtain ⟨u, _, hset, h⟩ := exec_bind_ok.mp h
  cases hset
  split at h
  case h_1 _ hrc =>
    cases h
    exact ⟨rfl, hrc, rfl⟩
  · cases h

theorem runShell (gate : Gate) : Executes env [gate] (Sync.runShell cfg session env gate) := by
  intro s a _ h
  obtain ⟨⟨_, _⟩, t, hre, h⟩ := exec_bind_ok.mp h
  obtain ⟨rfl, hrc, hou⟩ := runShellResult gate s _ t hre
  dsimp only at h hrc hou
  split at h
  case isTrue hpa =>
    cases h
    refine ⟨rfl, fun _ => ?_, trivial⟩
    rcases hpa with hze | hgap
    · exact .inl (by rw [hrc, hze])
    · exact .inr ⟨by rw [hrc]; rfl, by rw [hou]; exact hgap⟩
  · cases h

/-- A part that runs only under a condition. -/
theorem ite {c : Prop} [Decidable c] {n : SyncM α} (hm : c → Executes env gates m)
    (hn : ¬ c → Executes env later n) :
    Executes env (if c then gates else later) (if c then m else n) := by
  split
  case isTrue h => exact hm h
  case isFalse h => exact hn h

theorem get : Executes env [] (MonadState.get : SyncM Repo) := by
  rintro s b _ ⟨⟩
  exact ⟨rfl, trivial⟩

end Executes

section

variable (cfg : Config) (session : Session) (env : Env)

/-- The gate, if it has a command. -/
def configured (gate : Gate) : List Gate := if command cfg session env gate ≠ "" then [gate] else []

/-- The guard's test run, which only stands in for a missing test command. -/
def guardGates : List Gate :=
  if cfg.testCommand = "" ∧ cfg.regressionGuard ∧ env.fallbackTestCommand ≠ "" then [.guard] else []

/-- The gates before the push, in their order. -/
def schedule : List Gate :=
  configured cfg session env .test ++ (configured cfg session env .build ++
    (configured cfg session env .lint ++ (guardGates cfg env ++
      (configured cfg session env .repro ++ configured cfg session env .prePush))))

end

namespace Executes

theorem runCheck (label : String) (gate : Gate) :
    Executes env (configured cfg session env gate) (Sync.runCheck cfg session env label gate) := by
  apply ite
  · intro _
    exact ((runShell gate).mapError _).bind fun _ => .pure _
  · intro _
    exact .pure _

theorem runRegressionGuard : Executes env (if env.fallbackTestCommand = "" then [] else [.guard])
      (Sync.runRegressionGuard cfg session env) := by
  apply ite
  · intro _
    exact .pure _
  intro _ s a s' h
  obtain ⟨⟨_, _⟩, t, hre, h⟩ := exec_bind_ok.mp h
  obtain ⟨rfl, -, -⟩ := runShellResult .guard s _ t hre
  -- whatever the guard makes of the result, it runs nothing more
  have hrs : s' = s.ran env .guard := by
    dsimp only at h
    split at h
    · cases h; rfl
    split at h
    · cases h; rfl
    split at h
    · split at h
      · cases h; rfl
      · cases h
    · cases h
  exact ⟨hrs, fun hgu => absurd rfl hgu, trivial⟩

theorem runGuard : Executes env (guardGates cfg env) (Sync.runGuard cfg session env) := by
  unfold Sync.runGuard guardGates
  by_cases hgu : cfg.testCommand = "" ∧ cfg.regressionGuard
  · rw [if_pos hgu]
    simpa [hgu] using runRegressionGuard
  · rw [if_neg hgu, if_neg fun h => hgu ⟨h.1, h.2.1⟩]
    exact pure _

theorem runRepro (status : VerificationStatus) :
    Executes env (configured cfg session env .repro) (Sync.runRepro cfg session env status) := by
  unfold configured
  rw [ite_not]
  apply ite
  · intro _
    exact .pure _
  · intro _
    exact ((runShell .repro).mapError _).bind fun _ => .pure _

theorem runGuardedHook (name : String) (gate : Gate) :
    Executes env (configured cfg session env gate)
      (Sync.runGuardedHook cfg session env name gate) := by
  apply ite
  · intro _
    apply get.bind
    intro _
    refine ((runShell gate).mapError _).bind fun output => ?_
    apply get.bind
    intro _
    split
    · exact .throw _
    · exact .pure _
  · intro _
    exact .pure _

end Executes

/-! ## What the parts of a sync leave behind -/

/-- The gates have run on the working tree and passed. -/
structure RanGates (env : Env) (gates : List Gate) (s s' : Repo) : Prop where
  work : s'.work = carried env s.work gates
  log : s'.log = s.log ++ runsFrom env s.work gates
  passed : Passed env s.work gates

variable {s s' : Repo}

namespace RanGates

variable {s'' : Repo}

theorem none (hwo : s'.work = s.work) (hlog : s'.log = s.log) : RanGates env [] s s' where
  work := hwo
  log := by rw [hlog, runsFrom, append_nil]
  passed := trivial

theorem trans (h : RanGates env gates s s') (h' : RanGates env later s' s'') :
    RanGates env (gates ++ later) s s'' where
  work := by
    rw [h'.work, h.work, carried, carried, carried, foldl_append]
  log := by
    rw [h'.log, h.log, h.work, runsFrom_append, append_assoc]
  passed := by
    rw [passed_append, ← h.work]
    exact ⟨h.passed, h'.passed⟩

end RanGates

theorem Executes.ranGates (hm : Executes env gates m) {a : α} (h : m.exec s = (.ok a, s')) :
    RanGates env gates s s' ∧ s'.headTree = s.headTree := by
  obtain ⟨rfl, hpa⟩ := hm s a s' h
  rw [foldl_ran]
  exact ⟨⟨rfl, rfl, hpa⟩, rfl⟩

variable {step : GitStep} {prepared : Prepared} {f : Repo → Repo} {keep : String → Bool}
  {committed rollsBack : Bool}

section

variable {a : Unit}

theorem gitChecked_ok (h : (gitChecked env step f).exec s = (.ok a, s')) : s' = f s := by
  unfold gitChecked at h
  split at h
  · cases h
  · cases h; rfl

theorem unstage_ok (h : (unstage env step keep).exec s = (.ok a, s')) :
    s' = { s with index := s.index.select keep s.headTree } := by
  obtain ⟨t, _, hget, h⟩ := exec_bind_ok.mp h
  cases hget
  dsimp only at h
  split at h
  · exact gitChecked_ok h
  case isFalse heq =>
    cases h
    rw [not_not.mp heq]

/-- What goes into the commit: neither artifacts nor files off the whitelist. -/
def stagedTree (cfg : Config) (s : Repo) : Tree :=
  (s.work.select (! isArtifact ·) s.headTree).select (allowed cfg) s.headTree

theorem stageChanges_ok (h : (stageChanges cfg env).exec s = (.ok a, s')) :
    s' = { s with index := stagedTree cfg s } := by
  obtain ⟨_, t, hadd, h⟩ := exec_bind_ok.mp h
  obtain ⟨_, u, hun, h⟩ := exec_bind_ok.mp h
  rw [unstage_ok h, unstage_ok hun, gitChecked_ok hadd]
  rfl

theorem adoptRunCommit_ok (h : (adoptRunCommit session env).exec s = (.ok a, s')) :
    s' = s ∨ ∃ message, s' = s.amend message := by
  unfold adoptRunCommit at h
  split at h
  · obtain ⟨t, _, hget, h⟩ := exec_bind_ok.mp h
    cases hget
    split at h
    · exact .inr ⟨_, gitChecked_ok h⟩
    · cases h; exact .inl rfl
  · cases h; exact .inl rfl

/-- Whoever committed, the head is then what was staged. -/
theorem commitChanges_ok (h : (commitChanges session env).exec s = (.ok prepared, s')) :
    s'.work = s.work ∧ s'.log = s.log ∧ s'.headTree = s.index := by
  obtain ⟨t, _, hget, h⟩ := exec_bind_ok.mp h
  cases hget
  split at h
  case isTrue hsa =>
    split at h
    · obtain ⟨_, u, had, h⟩ := exec_bind_ok.mp h
      obtain ⟨_, _, hget, h⟩ := exec_bind_ok.mp h
      cases hget
      cases h
      rcases adoptRunCommit_ok had with rfl | ⟨message, rfl⟩
      · exact ⟨rfl, rfl, hsa.symm⟩
      · exact ⟨rfl, rfl, rfl⟩
    · cases h
      exact ⟨rfl, rfl, hsa.symm⟩
  · obtain ⟨_, u, hco, h⟩ := exec_bind_ok.mp h
    obtain ⟨_, _, hget, h⟩ := exec_bind_ok.mp h
    cases hget
    cases h
    rw [gitChecked_ok hco]
    exact ⟨rfl, rfl, rfl⟩

theorem amendHookChanges_ok (hst : session.strategy ≠ .sequential)
    (h : (amendHookChanges session env).exec s = (.ok a, s')) :
    s'.work = s.work ∧ s'.log = s.log ∧ s'.headTree = s.work := by
  obtain ⟨t, _, hget, h⟩ := exec_bind_ok.mp h
  cases hget
  split at h
  · obtain ⟨_, u, hadd, h⟩ := exec_bind_ok.mp h
    rw [gitChecked_ok h, gitChecked_ok hadd]
    exact ⟨rfl, rfl, rfl⟩
  case isFalse hcl =>
    cases h
    have hcl : s.dirty = false := by simpa [hst] using hcl
    simp only [Repo.dirty, Bool.or_eq_false_iff, decide_eq_false_iff_not, not_not] at hcl
    exact ⟨rfl, rfl, hcl.1.symm⟩

/-- The hook has no say in which tree is committed only if there is none. -/
theorem runPreCommitHook_ok (hst : session.strategy ≠ .sequential)
    (h : (runPreCommitHook cfg session env).exec s = (.ok a, s')) :
    RanGates env (configured cfg session env .preCommit) s s' ∧
      s'.headTree = if cfg.preCommit = "" then s.headTree else s'.work := by
  unfold runPreCommitHook at h
  by_cases hho : cfg.preCommit = ""
  · have hga : configured cfg session env .preCommit = [] := if_neg (not_not.mpr hho)
    rw [if_neg (not_not.mpr hho)] at h
    cases h
    rw [hga, if_pos hho]
    exact ⟨.none rfl rfl, rfl⟩
  · have hga : configured cfg session env .preCommit = [.preCommit] := if_pos hho
    rw [if_pos hho] at h
    obtain ⟨_, t, hrun, h⟩ := exec_bind_ok.mp h
    obtain ⟨hwo, hlog, hhe⟩ := amendHookChanges_ok hst h
    rw [hga, if_neg hho, hwo]
    exact ⟨((Executes.runShell .preCommit).ranGates hrun).1.trans (.none hwo hlog), hhe⟩

theorem runPrePushVerification_ok
    (h : (runPrePushVerification cfg session env).exec s = (.ok a, s')) :
    RanGates env (schedule cfg session env) s s' ∧ s'.headTree = s.headTree := by
  obtain ⟨_, s₁, hte, h⟩ := exec_bind_ok.mp h
  obtain ⟨_, s₂, hbu, h⟩ := exec_bind_ok.mp h
  obtain ⟨_, s₃, hli, h⟩ := exec_bind_ok.mp h
  obtain ⟨status, s₄, hgu, h⟩ := exec_bind_ok.mp h
  obtain ⟨_, s₅, hre, h⟩ := exec_bind_ok.mp h
  obtain ⟨_, s₆, hpu, h⟩ := exec_bind_ok.mp h
  cases h
  obtain ⟨hte, hts⟩ := (Executes.runCheck "test" .test).ranGates hte
  obtain ⟨hbu, hbl⟩ := (Executes.runCheck "build" .build).ranGates hbu
  obtain ⟨hli, hln⟩ := (Executes.runCheck "lint" .lint).ranGates hli
  obtain ⟨hgu, hgr⟩ := Executes.runGuard.ranGates hgu
  obtain ⟨hre, hrp⟩ := (Executes.runRepro _).ranGates hre
  obtain ⟨hpu, hps⟩ := (Executes.runGuardedHook "pre_push" .prePush).ranGates hpu
  have hga := hte.trans (hbu.trans (hli.trans (hgu.trans (hre.trans hpu))))
  refine ⟨{ hga with }, ?_⟩
  calc s₆.headTree = s₅.headTree := hps
    _ = s₄.headTree := hrp
    _ = s₃.headTree := hgr
    _ = s₂.headTree := hln
    _ = s₁.headTree := hbl
    _ = s.headTree := hts

/-- A gate that fails is never recovered from. -/
theorem catching_gateFailed_ok {m : SyncM Unit}
    (h : (tryCatch m (gateFailed env committed rollsBack)).exec s = (.ok a, s')) :
    m.exec s = (.ok (), s') := by
  have hth : ∀ e t, ((gateFailed env committed rollsBack e).exec t).1 ≠ .ok a := by
    intro e t
    cases e <;> exact (nomatch ·)
  rw [exec_tryCatch] at h
  generalize m.exec s = outcome at h
  rcases outcome with ⟨e | b, t⟩
  · exact absurd (congrArg Prod.fst h) (hth e t)
  · cases h
    rfl

end

section

variable (cfg : Config) (session : Session) (env : Env)

/-- The gates of a whole sync. -/
def executed (s : Repo) : List Gate :=
  if s.dirty then configured cfg session env .preCommit ++ schedule cfg session env
  else schedule cfg session env

/-- The tree that is to be pushed, as far as the sync has its way. -/
def committedTree (s : Repo) : Tree :=
  if ¬ s.dirty then s.headTree
  else if cfg.preCommit = "" then stagedTree cfg s
  else (env.shell .preCommit s.work).tree

end

section

theorem prepareChanged_ok (hst : session.strategy ≠ .sequential)
    (h : (prepareChanged cfg session env).exec s = (.ok prepared, s')) :
    RanGates env (configured cfg session env .preCommit ++ schedule cfg session env) s s' ∧
      s'.headTree = if cfg.preCommit = "" then stagedTree cfg s
        else (env.shell .preCommit s.work).tree := by
  obtain ⟨_, _, hco, h⟩ := exec_bind_ok.mp h
  rw [gitChecked_ok hco] at h
  rw [if_neg hst] at h
  obtain ⟨_, _, hsg, h⟩ := exec_bind_ok.mp h
  have hsd := stageChanges_ok hsg
  obtain ⟨_, _, hct, h⟩ := exec_bind_ok.mp h
  obtain ⟨hwo, hlog, hhe⟩ := commitChanges_ok hct
  obtain ⟨_, _, hga, h⟩ := exec_bind_ok.mp h
  obtain ⟨_, _, hget, h⟩ := exec_bind_ok.mp h
  cases hget
  cases h
  have hga := catching_gateFailed_ok hga
  rw [if_pos hst] at hga
  obtain ⟨_, _, hho, hve⟩ := exec_bind_ok.mp hga
  obtain ⟨hho, hhk⟩ := runPreCommitHook_ok hst hho
  obtain ⟨hve, hvr⟩ := runPrePushVerification_ok hve
  subst hsd
  refine ⟨(RanGates.none (s := s) hwo hlog).trans (hho.trans hve), ?_⟩
  rw [hvr, hhk, hhe, hho.work, hwo]
  split
  · rfl
  rename_i hcm
  have hgt : configured cfg session env .preCommit = [.preCommit] := if_pos hcm
  rw [hgt]
  rfl

theorem prepareUnchanged_ok (h : (prepareUnchanged cfg session env).exec s = (.ok prepared, s')) :
    RanGates env (schedule cfg session env) s s' ∧ s'.headTree = s.headTree := by
  obtain ⟨_, _, hget, h⟩ := exec_bind_ok.mp h
  cases hget
  obtain ⟨_, t, hve, h⟩ := exec_bind_ok.mp h
  cases h
  exact runPrePushVerification_ok (catching_gateFailed_ok hve)

/-- Once the changes are prepared, the gates have run and the head is known. -/
theorem prepare_ok (hst : session.strategy ≠ .sequential)
    (h : (prepare cfg session env).exec s = (.ok prepared, s')) :
    RanGates env (executed cfg session env s) s s' ∧ s'.headTree = committedTree cfg env s := by
  obtain ⟨_, _, hget, h⟩ := exec_bind_ok.mp h
  cases hget
  unfold executed committedTree
  split at h
  case isTrue hdi =>
    rw [if_pos hdi, if_neg (not_not.mpr hdi)]
    exact prepareChanged_ok hst h
  case isFalse hcl =>
    rw [if_neg hcl, if_pos hcl]
    exact prepareUnchanged_ok h

end

/-! ## Who may push -/

variable (kind : Gate → Prop)

/-- Nothing is pushed, and only gates of a kind are run. -/
def Quiet (s s' : Repo) : Prop :=
  s'.pushes = s.pushes ∧ ∃ runs, s'.log = s.log ++ runs ∧ ∀ run ∈ runs, kind run.gate

instance : IsPreorder Repo (Quiet kind) where
  refl s := ⟨rfl, [], by simp, by simp⟩
  trans s s' s'' := by
    rintro ⟨hpu, runs, hlog, hru⟩ ⟨hpu', runs', hlog', hru'⟩
    refine ⟨hpu'.trans hpu, runs ++ runs', by rw [hlog', hlog, append_assoc], ?_⟩
    intro run hrun
    rcases mem_append.mp hrun with hrun | hrun
    · exact hru run hrun
    · exact hru' run hrun

variable {gate : Gate}

namespace Quiet

variable {kind : Gate → Prop}

theorem modify (hpu : ∀ s, (f s).pushes = s.pushes := by exact fun _ => rfl)
    (hlog : ∀ s, (f s).log = s.log := by exact fun _ => rfl) :
    Respects (Quiet kind) (modify f : SyncM Unit) :=
  fun s => ⟨hpu s, [], by rw [append_nil]; exact hlog s, by simp⟩

theorem gitChecked (hpu : ∀ s, (f s).pushes = s.pushes := by exact fun _ => rfl)
    (hlog : ∀ s, (f s).log = s.log := by exact fun _ => rfl) :
    Respects (Quiet kind) (Sync.gitChecked env step f) := by
  unfold Sync.gitChecked
  split
  · exact .throw _
  · exact modify hpu hlog

theorem runShellResult (hgt : kind gate) :
    Respects (Quiet kind) (Sync.runShellResult cfg session env gate) := by
  intro s
  have haf : (Sync.runShellResult cfg session env gate).after s = s.ran env gate := by
    unfold Sync.runShellResult after
    rw [exec_bind, exec_get]
    dsimp only
    rw [exec_bind, exec_set]
    dsimp only
    split
    · rfl
    · rfl
  rw [haf]
  exact ⟨rfl, _, rfl, by simpa using hgt⟩

theorem runShell (hgt : kind gate) :
    Respects (Quiet kind) (Sync.runShell cfg session env gate) := by
  refine .bind (runShellResult hgt) fun ⟨rc, output⟩ => ?_
  exact .ite (.pure _) (.throw _)

theorem runCheck {label : String} (hgt : kind gate) :
    Respects (Quiet kind) (Sync.runCheck cfg session env label gate) :=
  .ite (.bind (runShell hgt).mapError fun _ => .pure _) (.pure _)

theorem runGuard (hgu : kind .guard) : Respects (Quiet kind) (Sync.runGuard cfg session env) := by
  refine .ite ?_ (.pure _)
  refine .ite (.pure _) ?_
  refine .bind (runShellResult hgu) fun ⟨rc, output⟩ => ?_
  refine .ite (.pure _) ?_
  refine .ite (.pure _) ?_
  split
  · exact .ite (.pure _) (Respects.throw _)
  · exact Respects.throw _

theorem runRepro {status : VerificationStatus} (hre : kind .repro) :
    Respects (Quiet kind) (Sync.runRepro cfg session env status) :=
  .ite (.pure _) (.bind (runShell hre).mapError fun _ => .pure _)

theorem runGuardedHook {name : String} (hgt : kind gate) :
    Respects (Quiet kind) (Sync.runGuardedHook cfg session env name gate) := by
  refine .ite ?_ (.pure _)
  refine .bind .get fun _ => ?_
  refine .bind (runShell hgt).mapError fun _ => ?_
  refine .bind .get fun _ => ?_
  exact .ite (.throw _) (.pure _)

theorem runPrePushVerification (hki : ∀ gate, kind gate) :
    Respects (Quiet kind) (Sync.runPrePushVerification cfg session env) := by
  refine .bind (runCheck (hki _)) fun _ => ?_
  refine .bind (runCheck (hki _)) fun _ => ?_
  refine .bind (runCheck (hki _)) fun _ => ?_
  refine .bind (runGuard (hki _)) fun _ => ?_
  refine .bind (runRepro (hki _)) fun _ => ?_
  refine .bind (runGuardedHook (hki _)) fun _ => ?_
  exact modify

theorem runPreCommitHook (hki : ∀ gate, kind gate) :
    Respects (Quiet kind) (Sync.runPreCommitHook cfg session env) := by
  refine .ite ?_ (.pure _)
  refine .bind (runShell (hki _)) fun _ => ?_
  refine .bind .get fun s => ?_
  refine .ite ?_ (.pure _)
  refine .bind gitChecked fun _ => ?_
  exact gitChecked

theorem unstage : Respects (Quiet kind) (Sync.unstage env step keep) := by
  refine .bind .get fun s => ?_
  exact .ite gitChecked (.pure _)

theorem stageChanges : Respects (Quiet kind) (Sync.stageChanges cfg env) := by
  refine .bind gitChecked fun _ => ?_
  exact .bind unstage fun _ => unstage

theorem adoptRunCommit : Respects (Quiet kind) (Sync.adoptRunCommit session env) := by
  unfold Sync.adoptRunCommit
  split
  · refine .bind .get fun s => ?_
    exact .ite gitChecked (.pure _)
  · exact .pure _

theorem commitChanges : Respects (Quiet kind) (Sync.commitChanges session env) := by
  refine .bind .get fun s => ?_
  refine .ite ?_ ?_
  · refine .ite ?_ (.pure _)
    refine .bind adoptRunCommit fun _ => ?_
    exact .bind .get fun _ => .pure _
  · refine .bind gitChecked fun _ => ?_
    exact .bind .get fun _ => .pure _

theorem gateFailed (e : SyncError) :
    Respects (Quiet kind) (Sync.gateFailed env committed rollsBack e) := by
  have hro : Respects (Quiet kind) (rollback env rollsBack) := by
    apply modify
    all_goals
      intro s
      split
      · rfl
      · rfl
  cases e with
  | verificationFailed => exact .bind hro fun _ => .throw _
  | hookFailed => exact .bind hro fun _ => .throw _
  | git => exact .throw _
  | postCommit => exact .throw _

theorem prepareChanged (hki : ∀ gate, kind gate) :
    Respects (Quiet kind) (Sync.prepareChanged cfg session env) := by
  have hga (committed : Bool) : Respects (Quiet kind) (gateChanges cfg session env committed) := by
    refine .tryCatch ?_ gateFailed
    refine .ite ?_ ?_
    · exact .bind (runPreCommitHook hki) fun _ => runPrePushVerification hki
    · exact runPrePushVerification hki
  have hco : Respects (Quiet kind) (do
      Sync.stageChanges cfg env
      let prepared ← Sync.commitChanges session env
      gateChanges cfg session env prepared.committed
      let s ← get
      pure (if session.strategy = .sequential then prepared
        else { prepared with commitSha := s.headSha }) : SyncM Prepared) := by
    refine .bind stageChanges fun _ => ?_
    refine .bind commitChanges fun prepared => ?_
    refine .bind (hga _) fun _ => ?_
    exact .bind .get fun _ => .pure _
  refine .bind gitChecked fun _ => ?_
  refine .ite ?_ ?_
  · exact .bind (runPreCommitHook hki) fun _ => hco
  · exact hco

theorem prepare (hki : ∀ gate, kind gate) :
    Respects (Quiet kind) (Sync.prepare cfg session env) := by
  refine .bind .get fun s => ?_
  refine .ite (prepareChanged hki) ?_
  refine .bind .get fun s => ?_
  refine .bind (.tryCatch (runPrePushVerification hki) gateFailed) fun _ => ?_
  exact .pure _

/-- After the push only the last hook is run. -/
theorem finish {pushed : Pushed} (hpo : kind .postSync) :
    Respects (Quiet kind) (Sync.finish cfg session env prepared pushed) := by
  refine .bind ?_ ?_
  · apply Respects.tryCatch (runGuardedHook hpo)
    intro e
    cases e with
    | hookFailed => exact .ite (.throw _) (.throw _)
    | verificationFailed => exact .throw _
    | git => exact .throw _
    | postCommit => exact .throw _
  · intro _
    exact .pure _

end Quiet

/-! ## The push itself -/

/-- What a successful push puts on the branch: the head, unless it had to be rebased. -/
def published (env : Env) (head : Tree) : Tree :=
  if env.push.rc = 0 ∨ env.rebase.rc ≠ 0 then head
  else (env.rebased.head?.map (·.tree)).getD .empty

/-- Nothing was pushed, or the head as it is published. -/
def Delivers (env : Env) (s s' : Repo) : Prop :=
  s'.log = s.log ∧ (s'.pushes = s.pushes ∨ s'.pushes = s.pushes ++ [published env s.headTree])

/-- A rejected branch is rebased, or forced onto a remote that does not have it. -/
def recovers (env : Env) : Bool :=
  env.rebase.rc = 0 || Text.contains env.rebase.stderr "fatal: invalid upstream" ||
    Text.contains env.rebase.stderr "couldn't find remote ref"

/-- The push goes through. A follow-up without changes gets no second try. -/
def Publishes (session : Session) (env : Env) (changed : Bool) : Prop :=
  (changed ∨ session.branchName ≠ "") ∧
    (env.push.rc = 0 ∨ (changed ∨ session.pullRequest = none) ∧ recovers env)

/-- The head is pushed under the condition and nothing is otherwise; only git makes it fail. -/
def Pushes (env : Env) (condition : Prop) (m : SyncM Pushed) : Prop :=
  ∀ s, (m.after s).log = s.log ∧ match (m.exec s).1 with
    | .ok _ => condition ∧ (m.after s).pushes = s.pushes ++ [published env s.headTree] ∨
        ¬ condition ∧ (m.after s).pushes = s.pushes
    | .error e => (∃ message, e = .git message) ∧ (m.after s).pushes = s.pushes

namespace Pushes

variable {condition : Prop} {m : SyncM Pushed}

theorem delivers (h : Pushes env condition m) (s : Repo) : Delivers env s (m.after s) := by
  obtain ⟨hlog, h⟩ := h s
  refine ⟨hlog, ?_⟩
  split at h
  · rcases h with ⟨-, hpu⟩ | ⟨-, hsa⟩
    · exact .inr hpu
    · exact .inl hsa
  · exact .inl h.2

theorem recordPush (hc : condition) (h : env.push.rc = 0 ∨ env.rebase.rc ≠ 0) :
    Pushes env condition Sync.recordPush :=
  fun s => ⟨rfl, .inl ⟨hc, by rw [published, if_pos h]; rfl⟩⟩

theorem nothing (pushed : Pushed) (hc : ¬ condition) : Pushes env condition (pure pushed) :=
  fun _ => ⟨rfl, .inr ⟨hc, rfl⟩⟩

theorem rebaseAndPush (hpu : env.push.rc ≠ 0) :
    Pushes env (recovers env) (Sync.rebaseAndPush session env) := by
  unfold Sync.rebaseAndPush remoteChecked
  by_cases hfe : env.fetch.rc = 0
  case neg =>
    rw [if_neg hfe]
    exact fun s => ⟨rfl, ⟨_, rfl⟩, rfl⟩
  rw [if_pos hfe]
  by_cases hre : env.rebase.rc = 0
  · rw [if_pos hre]
    by_cases hrt : env.retryPush.rc = 0
    · rw [if_pos hrt]
      refine fun s => ⟨rfl, .inl ⟨by simp [recovers, hre], ?_⟩⟩
      rw [published, if_neg (by simp [hpu, hre])]
      rfl
    · rw [if_neg hrt]
      exact fun s => ⟨rfl, ⟨_, rfl⟩, rfl⟩
  · rw [if_neg hre]
    by_cases hmi : Text.contains env.rebase.stderr "fatal: invalid upstream" ∨
        Text.contains env.rebase.stderr "couldn't find remote ref"
    · rw [if_pos hmi]
      by_cases hfo : env.forcePush.rc = 0
      · rw [if_pos hfo]
        exact recordPush (by simpa [recovers, hre] using hmi) (.inr hre)
      · rw [if_neg hfo]
        exact fun s => ⟨rfl, ⟨_, rfl⟩, rfl⟩
    · rw [if_neg hmi]
      have hlo : ¬ recovers env := by simpa [recovers, hre] using hmi
      by_cases hco : env.conflicts ≠ []
      · rw [if_pos hco]
        exact fun s => ⟨rfl, .inr ⟨hlo, rfl⟩⟩
      · rw [if_neg hco, if_neg hre]
        exact fun s => ⟨rfl, ⟨_, rfl⟩, rfl⟩

theorem pushWithRecovery :
    Pushes env (env.push.rc = 0 ∨ recovers env) (Sync.pushWithRecovery session env) := by
  unfold Sync.pushWithRecovery
  by_cases hpu : env.push.rc = 0
  · rw [if_pos hpu]
    exact recordPush (.inl hpu) (.inl hpu)
  simp only [hpu, if_false, false_or]
  split
  · exact rebaseAndPush hpu
  · rw [remoteChecked, if_neg hpu]
    exact fun s => ⟨rfl, ⟨_, rfl⟩, rfl⟩

theorem deliver (cfg : Config) (session : Session) (env : Env) (prepared : Prepared) :
    Pushes env (¬ noPush cfg session ∧ Publishes session env prepared.changed)
      (Sync.deliver cfg session env prepared) := by
  unfold Sync.deliver Publishes
  split
  case isTrue hno => exact nothing _ fun h => h.1 hno
  rename_i hpu
  split
  case isTrue hch => simpa [hpu, hch] using pushWithRecovery
  rename_i hsa
  split
  case isTrue hbr => exact nothing _ (by simp [hsa, hbr])
  rename_i hbr
  split
  case isTrue hfo =>
    unfold pushDirectly
    split
    case isTrue hrc => exact recordPush (by simp [hpu, hbr, hrc]) (.inl hrc)
    case isFalse hrc => exact nothing _ (by simp [hrc, hsa, Option.isSome_iff_ne_none.mp hfo])
  case isFalse hnew =>
    have hnew : session.pullRequest = none := by simpa using hnew
    simpa [hpu, hbr, hnew] using pushWithRecovery

end Pushes

/-! ## Verified pushes -/

/-- The gates that a push has to pass, if they are configured. -/
def requiredGates : List Gate := [.preCommit, .test, .build, .lint, .repro, .prePush]

/-- Hooks, but not commands, may be skipped for want of a tool. -/
def Run.succeeded (run : Run) : Prop :=
  run.rc = some 0 ∨ ¬ run.gate.isCommand ∧ run.rc.isSome ∧ environmentGap run.output

instance (run : Run) : Decidable run.succeeded := inferInstanceAs (Decidable (_ ∨ _))

section

variable (cfg : Config) (session : Session) (env : Env) (log : List Run) (tree : Tree)

/-- All configured gates have succeeded on the tree, and no command has failed. -/
def Verified : Prop :=
  (∀ gate ∈ requiredGates, command cfg session env gate ≠ "" →
    ∃ run ∈ log, run.gate = gate ∧ run.tree = tree ∧ run.succeeded) ∧
  ∀ run ∈ log, run.gate.isCommand → run.rc = some 0

instance : Decidable (Verified cfg session env log tree) :=
  inferInstanceAs (Decidable (_ ∧ _))

/-- Every gate that is due finds the tree that is to be published, and every command exits
with zero on it. The hook before the commit is only due if there is something to commit. -/
def Gated (s : Repo) : Prop :=
  (cfg.preCommit ≠ "" → s.dirty) ∧
  ∀ before gate after, executed cfg session env s = before ++ gate :: after → gate ≠ .guard →
    carried env s.work before = published env (committedTree cfg env s) ∧
    (gate.isCommand → (env.shell gate (published env (committedTree cfg env s))).rc = some 0)

end

section

variable {repo : Repo}

/-- The push, and then whatever the last hook does. -/
theorem deliver_finish (cfg : Config) (session : Session) (env : Env) (prepared : Prepared)
    (s : Repo) : ∃ t, Delivers env s t ∧ (noPush cfg session → t.pushes = s.pushes) ∧
      Quiet (· = .postSync) t ((do
        let pushed ← deliver cfg session env prepared
        finish cfg session env prepared pushed : SyncM GitSyncResult).after s) := by
  have hpu := Pushes.deliver cfg session env prepared
  have hde := hpu.delivers s
  obtain ⟨-, hpu⟩ := hpu s
  unfold after at hde hpu ⊢
  rw [exec_bind]
  generalize (deliver cfg session env prepared).exec s = outcome at hde hpu ⊢
  rcases outcome with ⟨e | pushed, t⟩
  · exact ⟨t, hde, fun _ => hpu.2, refl_of (Quiet (· = .postSync)) t⟩
  have hfi : Respects (Quiet (· = .postSync)) (finish cfg session env prepared pushed) :=
    .finish rfl
  refine ⟨t, hde, fun hno => ?_, hfi t⟩
  rcases hpu with ⟨⟨hps, -⟩, -⟩ | ⟨-, hsa⟩
  · exact absurd hno hps
  · exact hsa

theorem strategy_of_push (h : ¬ noPush cfg session) : session.strategy ≠ .sequential := by
  rintro heq
  simp [noPush, heq] at h

theorem prepare_pushes {outcome : Except SyncError Prepared}
    (h : (prepare cfg session env).exec repo = (outcome, s)) : s.pushes = repo.pushes := by
  have hqu : Quiet (fun _ => True) repo ((prepare cfg session env).exec repo).2 :=
    .prepare (fun _ => trivial) repo
  rw [h] at hqu
  exact hqu.1

/-- A sync pushes once at most, and then what it has committed as git publishes it. -/
theorem sync_pushes (cfg : Config) (session : Session) (env : Env) (repo : Repo) :
    ((sync cfg session env).after repo).pushes = repo.pushes ∨
      ((sync cfg session env).after repo).pushes =
        repo.pushes ++ [published env (committedTree cfg env repo)] := by
  unfold sync after
  rw [exec_bind]
  rcases hpr : (prepare cfg session env).exec repo with ⟨e | prepared, s⟩
  · exact .inl (prepare_pushes hpr)
  have hqu := prepare_pushes hpr
  obtain ⟨t, ⟨-, hde⟩, hke, hfi, -⟩ := deliver_finish cfg session env prepared s
  show Repo.pushes (after _ s) = _ ∨ Repo.pushes (after _ s) = _
  rw [hfi, ← hqu]
  by_cases hno : noPush cfg session = true
  · -- neither a local tracker nor a sequential workspace has a remote to push to
    exact .inl (hke hno)
  · obtain ⟨-, hhe⟩ := prepare_ok (strategy_of_push hno) hpr
    rwa [← hhe]

variable {tree : Tree}

/-- A sync that pushes has run its gates, and nothing but the last hook after them. -/
theorem sync_pushed (hph : ¬ noPush cfg session) (hlog : repo.log = [])
    (hps : repo.pushes = []) (hpu : tree ∈ ((sync cfg session env).after repo).pushes) :
    tree = published env (committedTree cfg env repo) ∧
      Passed env repo.work (executed cfg session env repo) ∧
      ∃ posts, ((sync cfg session env).after repo).log =
        runsFrom env repo.work (executed cfg session env repo) ++ posts ∧
        ∀ run ∈ posts, run.gate = .postSync := by
  have htr : tree = published env (committedTree cfg env repo) := by
    rcases sync_pushes cfg session env repo with hsa | hnew
    · rw [hsa, hps] at hpu
      cases hpu
    · rw [hnew, hps] at hpu
      exact mem_singleton.mp hpu
  unfold sync after at hpu ⊢
  rw [exec_bind] at hpu ⊢
  rcases hpr : (prepare cfg session env).exec repo with ⟨e | prepared, s⟩
  · -- what fails before the push has not pushed
    rw [hpr] at hpu
    rw [prepare_pushes hpr, hps] at hpu
    cases hpu
  obtain ⟨hga, -⟩ := prepare_ok (strategy_of_push hph) hpr
  obtain ⟨t, ⟨hlo, -⟩, -, -, posts, hpo, hon⟩ := deliver_finish cfg session env prepared s
  refine ⟨htr, hga.passed, posts, hpo.trans ?_, hon⟩
  rw [hlo, hga.log, hlog, nil_append]

theorem mem_configured {other : Gate} :
    other ∈ configured cfg session env gate ↔ other = gate ∧ command cfg session env gate ≠ "" := by
  unfold configured
  split
  case isTrue h => simp [h]
  case isFalse h => simp [h]

theorem configured_sublist (gate : Gate) : (configured cfg session env gate).Sublist [gate] := by
  unfold configured
  split
  · exact List.Sublist.refl _
  · exact nil_sublist _

/-- No gate is run twice. -/
theorem executed_nodup : (executed cfg session env repo).Nodup := by
  have hgu : (guardGates cfg env).Sublist [.guard] := by
    unfold guardGates
    split
    · exact List.Sublist.refl _
    · exact nil_sublist _
  have hsc : (schedule cfg session env).Sublist [.test, .build, .lint, .guard, .repro, .prePush] :=
    (configured_sublist .test).append ((configured_sublist .build).append
      ((configured_sublist .lint).append (hgu.append
        ((configured_sublist .repro).append (configured_sublist .prePush)))))
  unfold executed
  split
  · exact ((configured_sublist .preCommit).append hsc).nodup (by decide)
  · exact hsc.nodup (by decide)

theorem mem_schedule (hgu : gate ≠ .guard) : gate ∈ schedule cfg session env ↔
      gate ∈ requiredGates ∧ gate ≠ .preCommit ∧ command cfg session env gate ≠ "" := by
  have hno : gate ∉ guardGates cfg env := by
    unfold guardGates
    split
    · simpa using hgu
    · simp
  unfold schedule
  simp only [mem_append, mem_configured, hno]
  cases gate <;> simp [requiredGates] at hgu ⊢

/-- Apart from the guard, the gates that run are the required ones; a clean tree does without
the hook before the commit. -/
theorem mem_executed (hgu : gate ≠ .guard) :
    gate ∈ executed cfg session env repo ↔ gate ∈ requiredGates ∧
      command cfg session env gate ≠ "" ∧ (gate = .preCommit → repo.dirty) := by
  unfold executed
  split
  case isTrue hdi =>
    rw [mem_append, mem_configured, mem_schedule hgu]
    by_cases hho : gate = .preCommit
    · subst hho
      simp [requiredGates, hdi]
    · simp [hho]
  · rw [mem_schedule hgu]
    tauto

/-- The gate's run on a tree. -/
def runOn (env : Env) (gate : Gate) (tree : Tree) : Run where
  gate
  tree
  rc := (env.shell gate tree).rc
  output := (env.shell gate tree).output

theorem runOn_mem {before after : List Gate} (h : gates = before ++ gate :: after) :
    runOn env gate (carried env work before) ∈ runsFrom env work gates :=
  mem_runsFrom.mpr ⟨before, after, h, rfl, rfl, rfl⟩

variable {posts : List Run}

theorem Verified.gated (h : Verified cfg session env
      (runsFrom env repo.work (executed cfg session env repo) ++ posts) tree)
    (hpo : ∀ run ∈ posts, run.gate = .postSync)
    (htr : tree = published env (committedTree cfg env repo)) : Gated cfg session env repo := by
  obtain ⟨hga, hco⟩ := h
  -- a required gate's run is among the gates' runs, since the last hook is none of them
  have hfo : ∀ gate ∈ requiredGates, command cfg session env gate ≠ "" →
      ∃ before after, executed cfg session env repo = before ++ gate :: after ∧
        carried env repo.work before = tree := by
    intro gate hre hcm
    obtain ⟨run, hrun, rfl, hon, -⟩ := hga gate hre hcm
    rcases mem_append.mp hrun with hrun | hrun
    · obtain ⟨before, after, hsp, hwo, -⟩ := mem_runsFrom.mp hrun
      exact ⟨before, after, hsp, hwo ▸ hon⟩
    · rw [hpo run hrun] at hre
      exact absurd hre (by decide)
  constructor
  · intro hho
    obtain ⟨_, _, hsp, -⟩ := hfo .preCommit (by decide) hho
    have hmem : .preCommit ∈ executed cfg session env repo := by simp [hsp]
    exact ((mem_executed (by decide)).mp hmem).2.2 rfl
  intro before gate _ hsp hgu
  rw [← htr]
  have hmem : gate ∈ executed cfg session env repo := by simp [hsp]
  obtain ⟨hre, hcm, -⟩ := (mem_executed hgu).mp hmem
  obtain ⟨before', _, hsp', hca⟩ := hfo gate hre hcm
  -- the gate runs once, so the run that was found is this one
  have hsa : before' = before := by
    have hno' : (executed cfg session env repo).Nodup := executed_nodup
    rw [hsp, nodup_middle, nodup_cons, mem_append, not_or] at hno'
    rw [hsp, append_cons_inj_of_notMem hno'.1.1 hno'.1.2] at hsp'
    exact hsp'.1.symm
  subst hsa
  refine ⟨hca, fun hcmd => ?_⟩
  rw [← hca]
  exact hco _ (mem_append_left _ (runOn_mem hsp)) hcmd

theorem Gated.verified (h : Gated cfg session env repo)
    (hpa : Passed env repo.work (executed cfg session env repo))
    (hpo : ∀ run ∈ posts, run.gate = .postSync)
    (htr : tree = published env (committedTree cfg env repo)) : Verified cfg session env
      (runsFrom env repo.work (executed cfg session env repo) ++ posts) tree := by
  obtain ⟨hho, hga⟩ := h
  rw [← htr] at hga
  constructor
  · intro gate hre hcm
    have hgu : gate ≠ .guard := by
      rintro rfl
      exact absurd hre (by decide)
    have hmem : gate ∈ executed cfg session env repo := by
      refine (mem_executed hgu).mpr ⟨hre, hcm, ?_⟩
      rintro rfl
      exact hho hcm
    obtain ⟨before, after, hsp⟩ := append_of_mem hmem
    obtain ⟨hca, hze⟩ := hga before gate after hsp hgu
    have hps : (env.shell gate tree).passes := by
      rw [hsp, passed_append, hca] at hpa
      exact hpa.2.1 hgu
    have hrun : runOn env gate tree ∈
        runsFrom env repo.work (executed cfg session env repo) ++ posts := by
      rw [← hca]
      exact mem_append_left _ (runOn_mem hsp)
    refine ⟨_, hrun, rfl, rfl, ?_⟩
    by_cases hcmd : gate.isCommand
    · exact .inl (hze hcmd)
    · exact hps.imp_right fun hgap => ⟨hcmd, hgap⟩
  · intro run hrun hcmd
    rcases mem_append.mp hrun with hrun | hrun
    · obtain ⟨before, after, hsp, hon, hrc, -⟩ := mem_runsFrom.mp hrun
      have hgu : run.gate ≠ .guard := by
        intro h
        rw [h] at hcmd
        cases hcmd
      obtain ⟨hca, hze⟩ := hga before run.gate after hsp hgu
      rw [hrc, hon, hca]
      exact hze hcmd
    · rw [hpo run hrun] at hcmd
      cases hcmd

end

variable (cfg : Config)

/-- A tree with one file. -/
def oneFile (content : String) : Tree := ⟨{("app.py", content)}, by simp⟩

/-- A repository whose head has the old content of the file. -/
def edited (content : String) : Repo where
  work := oneFile content
  index := oneFile "old"
  history := [{ sha := 0, tree := oneFile "old", message := "start" }]
  nextSha := 1

/-- The same result for every gate, which leaves the tree alone. -/
def answering (rc : Int) (output : String) : Env where
  shell _ tree := { rc := some rc, output, tree }

theorem edited_pushed : oneFile "new" ∈ ((sync { preCommit := "fmt", testCommand := "pytest" } {}
      (answering 0 "")).after (edited "new")).pushes := by
  decide +kernel

/-- The tree is pushed, and not all gates have seen it and succeeded. -/
def PushesUnverified (env : Env) (repo : Repo) (tree : Tree) : Prop :=
  tree ∈ ((sync cfg {} env).after repo).pushes ∧
    ¬ Verified cfg {} env ((sync cfg {} env).after repo).log tree

instance (env : Env) (repo : Repo) (tree : Tree) :
    Decidable (PushesUnverified cfg env repo tree) := inferInstanceAs (Decidable (_ ∧ _))

end Orchestratord.Sync
