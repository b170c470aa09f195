import Orchestratord.Foundation.CommitGraph
import Orchestratord.Foundation.Runs

/-! # A work branch that others push to as well

The pushes of a sync and of the rebase for a pull request, command by command, so that somebody
else may push in between. What a command has to say beyond the commits, a failure of the network
or a conflict, is up to the outside. -/

namespace Orchestratord.Sync

open Foundation CommitGraph List

/-- Which command comes next in a call that has begun. -/
inductive Phase where
  | idle
  /-- `_push_directly` has fetched. -/
  | directFetched
  /-- The first push of `_push_with_recovery` was rejected. -/
  | rejected
  | fetched
  | rebased
  /-- There is no upstream to rebase on. -/
  | noUpstream
  /-- `rebase_for_pr` has fetched the base. -/
  | prFetched
  /-- It has rebased and read where the tracking ref is. -/
  | prRebased (remoteSha : Option Nat)
  deriving DecidableEq, Repr

structure SharedBranch where
  graph : CommitGraph
  /-- The work branch of the workspace. -/
  localTip : Nat
  /-- The remote-tracking ref of the work branch. -/
  tracking : Option Nat := none
  /-- The work branch of the remote. -/
  remote : Option Nat := none
  remoteBase : Nat
  trackingBase : Nat
  /-- The refspec of the clone covers the work branch; that of a shallow clone does not. -/
  tracks : Bool
  phase : Phase := .idle
  /-- The commits that other people have pushed to the branch. -/
  pushed : List Nat := []

inductive PushAnswer where
  | accepted
  /-- With a text that is taken for a non-fast-forward. -/
  | rejected
  | failed
  deriving DecidableEq, Repr

inductive Step where
  /-- Somebody makes a commit, or a copy of one. -/
  | commit (parents : List Nat) (copyOf : Option Nat)
  /-- A run leaves the work branch at a commit. -/
  | checkout (tip : Nat)
  /-- Somebody fetches into the tracking refs of the workspace. -/
  | fetch
  | othersPush (tip : Nat)
  | basePush (tip : Nat)
  -- `_push_directly`
  | directFetch (ok : Bool)
  | directPush (ok : Bool)
  -- `_push_with_recovery`
  | recoveryPush (answer : PushAnswer)
  | recoveryFetch (ok : Bool)
  | recoveryRebase (ok : Bool)
  | recoveryRetry (ok : Bool)
  | recoveryForce (ok : Bool)
  -- `rebase_for_pr`
  | prFetch (ok : Bool)
  | prRebase (ok : Bool)
  | prPush (ok : Bool)
  deriving DecidableEq, Repr

namespace SharedBranch

/-- The workspace and the remote before there is a work branch. -/
def start (tracks : Bool) : SharedBranch where
  graph := .root
  localTip := 0
  remoteBase := 0
  trackingBase := 0
  tracks

variable (s : SharedBranch) (tip : Nat)

/-- The remote may go on to the commit. -/
def FastForward : Prop := ∀ r ∈ s.remote, s.graph.Contains tip r

instance : Decidable (s.FastForward tip) :=
  inferInstanceAs (Decidable (∀ r ∈ s.remote, _))

/-- The remote takes the work branch as it is, and the tracking ref follows. -/
def deliver : SharedBranch :=
  { s with
    remote := some s.localTip
    tracking := if s.tracks then some s.localTip else s.tracking
    phase := .idle }

/-- A fetch leaves the tracking ref alone if the remote has no such branch. -/
def fetchBranch : SharedBranch :=
  { s with tracking := if s.tracks then s.remote.or s.tracking else s.tracking }

def rebaseOnto (upstream : Nat) : SharedBranch :=
  { s with
    graph := (s.graph.rebase s.localTip upstream).1
    localTip := (s.graph.rebase s.localTip upstream).2 }

/-- Push, unless git refuses to; then the call is over. -/
def pushIf (accepts : Prop) [Decidable accepts] : SharedBranch :=
  if accepts then s.deliver else { s with phase := .idle }

/-- Commits that were not on the remote branch before. -/
def newCommits : List Nat :=
  (s.graph.history tip).filter fun c => ∀ r ∈ s.remote, ¬ s.graph.Contains r c

/-- The lease holds if the remote is where the tracking ref was; without one the push is plain. -/
def LeaseHolds : Option Nat → Prop
  | some remoteSha => s.remote = some remoteSha
  | none => s.FastForward s.localTip

instance (remoteSha : Option Nat) : Decidable (s.LeaseHolds remoteSha) := by
  unfold LeaseHolds
  split <;> infer_instance

/-- A step that does not belong to the phase changes nothing. -/
def step : Step → SharedBranch
  | .commit parents copyOf => { s with graph := s.graph.commit parents copyOf }
  | .checkout tip => if s.phase = .idle ∧ tip < s.graph.size then { s with localTip := tip } else s
  | .fetch => s.fetchBranch
  | .othersPush tip =>
    if tip < s.graph.size ∧ s.FastForward tip then
      { s with remote := some tip, pushed := s.pushed ++ s.newCommits tip }
    else s
  | .basePush tip => if tip < s.graph.size then { s with remoteBase := tip } else s
  | .directFetch ok =>
    -- a failure to fetch is ignored
    if s.phase = .idle then { (if ok then s.fetchBranch else s) with phase := .directFetched }
    else s
  | .directPush ok =>
    if s.phase = .directFetched then s.pushIf (ok ∧ s.FastForward s.localTip) else s
  | .recoveryPush answer =>
    if s.phase = .idle then
      match answer with
      | .accepted =>
        if s.FastForward s.localTip then s.deliver else { s with phase := .rejected }
      | .rejected => { s with phase := .rejected }
      | .failed => s
    else s
  | .recoveryFetch ok =>
    if s.phase = .rejected then
      if ok then { s.fetchBranch with trackingBase := s.remoteBase, phase := .fetched }
      else { s with phase := .idle }
    else s
  | .recoveryRebase ok =>
    if s.phase = .fetched then
      match s.tracking with
      | none => { s with phase := .noUpstream }
      | some upstream =>
        if ok then { s.rebaseOnto upstream with phase := .rebased } else { s with phase := .idle }
    else s
  | .recoveryRetry ok =>
    if s.phase = .rebased then s.pushIf (ok ∧ s.FastForward s.localTip) else s
  | .recoveryForce ok => if s.phase = .noUpstream then s.pushIf (ok = true) else s
  | .prFetch ok =>
    if s.phase = .idle then
      if ok then { s with trackingBase := s.remoteBase, phase := .prFetched } else s
    else s
  | .prRebase ok =>
    if s.phase = .prFetched then
      -- nothing to do if the branch is not behind
      if s.graph.Contains s.localTip s.trackingBase ∨ ok = false then { s with phase := .idle }
      else { s.rebaseOnto s.trackingBase with phase := .prRebased s.tracking }
    else s
  | .prPush ok =>
    match s.phase with
    | .prRebased remoteSha =>
      if ok ∧ s.LeaseHolds remoteSha then s.deliver
      else { s with localTip := s.tracking.getD s.localTip, phase := .idle }
    | _ => s

/-- Every commit that others have pushed is on the remote branch, itself or as a copy. -/
def NothingLost : Prop := ∀ c ∈ s.pushed, ∃ r ∈ s.remote, s.graph.Carries r c

instance : Decidable s.NothingLost :=
  inferInstanceAs (Decidable (∀ c ∈ s.pushed, ∃ r ∈ s.remote, _))

/-- The commits of others that a forced push could lose are in what it pushes. The lease protects
those that the tracking ref does not know; the others must survive the rebase. -/
def Integrated : Step → Prop
  | .prRebase _ => s.phase = .prFetched → ∀ c ∈ s.pushed,
    (∃ t ∈ s.tracking, s.graph.Carries t c) → s.graph.Survives s.localTip s.trackingBase c
  | .recoveryForce _ => s.phase = .noUpstream → ∀ c ∈ s.pushed, s.graph.Carries s.localTip c
  | _ => True

instance (i : Step) : Decidable (s.Integrated i) := by
  cases i <;> unfold Integrated <;> infer_instance

/-! ## The invariant -/

/-- All tips exist; the tracking ref is a commit that the remote has had and still has; and if
the lease holds then the branch that was rebased carries everything. -/
structure Sound : Prop where
  localTip : s.localTip < s.graph.size
  remoteBase : s.remoteBase < s.graph.size
  trackingBase : s.trackingBase < s.graph.size
  remote : ∀ r ∈ s.remote, r < s.graph.size
  pushed : ∀ c ∈ s.pushed, c < s.graph.size
  untracked : s.tracks = false → s.tracking = none
  known : ∀ t ∈ s.tracking, ∃ r ∈ s.remote, s.graph.Contains r t
  kept : s.NothingLost
  lease : ∀ t, s.phase = .prRebased (some t) → (∃ r ∈ s.remote, s.graph.Contains r t) ∧
      (s.remote = some t → ∀ c ∈ s.pushed, s.graph.Carries s.localTip c)

namespace Sound

variable {s : SharedBranch}

theorem start (tracks : Bool) : Sound (start tracks) where
  localTip := Nat.one_pos
  remoteBase := Nat.one_pos
  trackingBase := Nat.one_pos
  remote := nofun
  pushed := nofun
  untracked := fun _ => rfl
  known := nofun
  kept := nofun
  lease := nofun

variable (h : Sound s)

include h

theorem tracking_lt {t : Nat} (ht : t ∈ s.tracking) : t < s.graph.size := by
  obtain ⟨r, hr, hco⟩ := h.known t ht
  exact lt_of_le_of_lt hco.le (h.remote r hr)

/-- More commits do no harm. -/
theorem extend {g : CommitGraph} (hg : s.graph.Extends g) : Sound { s with graph := g } where
  localTip := lt_of_lt_of_le h.localTip hg.size_le
  remoteBase := lt_of_lt_of_le h.remoteBase hg.size_le
  trackingBase := lt_of_lt_of_le h.trackingBase hg.size_le
  remote := fun r hr => lt_of_lt_of_le (h.remote r hr) hg.size_le
  pushed := fun c hc => lt_of_lt_of_le (h.pushed c hc) hg.size_le
  untracked := h.untracked
  known := by
    intro t ht
    obtain ⟨r, hr, hco⟩ := h.known t ht
    exact ⟨r, hr, hg.contains hco⟩
  kept := by
    intro c hc
    obtain ⟨r, hr, hca⟩ := h.kept c hc
    exact ⟨r, hr, hg.carries (h.remote r hr) (h.pushed c hc) hca⟩
  lease := by
    intro t ht
    obtain ⟨⟨r, hr, hco⟩, hca⟩ := h.lease t ht
    refine ⟨⟨r, hr, hg.contains hco⟩, fun hre c hc => ?_⟩
    exact hg.carries h.localTip (h.pushed c hc) (hca hre c hc)

variable {phase : Phase}

theorem setPhase (hle : ∀ t, phase = .prRebased (some t) → (∃ r ∈ s.remote, s.graph.Contains r t) ∧
      (s.remote = some t → ∀ c ∈ s.pushed, s.graph.Carries s.localTip c)) :
    Sound { s with phase := phase } :=
  { h with lease := hle }

variable {tip : Nat}

/-- The work branch may be anywhere while no lease is taken. -/
theorem setLocalTip (htip : tip < s.graph.size) (hph : ∀ t, phase ≠ .prRebased (some t)) :
    Sound { s with localTip := tip, phase := phase } :=
  { h with localTip := htip, lease := fun t ht => absurd ht (hph t) }

theorem fetchBranch : Sound s.fetchBranch := by
  by_cases htr : s.tracks = true
  · refine { h with untracked := fun hc => ?_, known := fun t ht => ?_ }
    · rw [show s.tracks = false from hc] at htr
      cases htr
    change t ∈ (if s.tracks then s.remote.or s.tracking else s.tracking) at ht
    rw [if_pos htr, Option.mem_def, Option.or_eq_some_iff] at ht
    rcases ht with hre | ⟨-, htg⟩
    · exact ⟨t, hre, .refl _ t⟩
    · exact h.known t htg
  · have hsa : s.fetchBranch = s := by
      unfold SharedBranch.fetchBranch
      rw [if_neg htr]
    rwa [hsa]

/-- What the remote could be advanced to has all that the remote has. -/
theorem carries_of_fastForward (hff : s.FastForward tip) :
    ∀ c ∈ s.pushed, s.graph.Carries tip c := by
  intro c hc
  obtain ⟨r, hr, hca⟩ := h.kept c hc
  exact hca.of_contains (hff r hr)

theorem deliver (hca : ∀ c ∈ s.pushed, s.graph.Carries s.localTip c) : Sound s.deliver where
  localTip := h.localTip
  remoteBase := h.remoteBase
  trackingBase := h.trackingBase
  remote := by
    rintro r ⟨⟩
    exact h.localTip
  pushed := h.pushed
  untracked := by
    intro htr
    show (if s.tracks then some s.localTip else s.tracking) = none
    rw [show s.tracks = false from htr]
    exact h.untracked htr
  known := by
    intro t ht
    refine ⟨s.localTip, rfl, ?_⟩
    change t ∈ (if s.tracks then some s.localTip else s.tracking) at ht
    split at ht
    · cases ht
      exact .refl _ _
    case isFalse htr =>
      rw [h.untracked (by simpa using htr)] at ht
      cases ht
  kept := fun c hc => ⟨s.localTip, rfl, hca c hc⟩
  lease := nofun

theorem idle : Sound { s with phase := .idle } := h.setPhase nofun

theorem pushIf {accepts : Prop} [Decidable accepts]
    (hca : accepts → ∀ c ∈ s.pushed, s.graph.Carries s.localTip c) :
    Sound (s.pushIf accepts) := by
  unfold SharedBranch.pushIf
  split
  case isTrue hac => exact h.deliver (hca hac)
  · exact h.idle

/-- Others add to the remote. A lease that held before holds no more, unless nothing was added:
the remote never comes back to where it was. -/
theorem othersPush (htip : tip < s.graph.size) (hff : s.FastForward tip) :
    Sound { s with remote := some tip, pushed := s.pushed ++ s.newCommits tip } where
  localTip := h.localTip
  remoteBase := h.remoteBase
  trackingBase := h.trackingBase
  remote := by
    rintro r ⟨⟩
    exact htip
  pushed := by
    intro c hc
    rcases mem_append.mp hc with hc | hc
    · exact h.pushed c hc
    · exact lt_of_le_of_lt (mem_history.mp (mem_filter.mp hc).1).le htip
  untracked := h.untracked
  known := by
    intro t ht
    obtain ⟨r, hr, hco⟩ := h.known t ht
    exact ⟨tip, rfl, (hff r hr).trans hco⟩
  kept := by
    intro c hc
    refine ⟨tip, rfl, ?_⟩
    rcases mem_append.mp hc with hc | hc
    · exact h.carries_of_fastForward hff c hc
    · exact (mem_history.mp (mem_filter.mp hc).1).carries
  lease := by
    intro t ht
    obtain ⟨⟨r, hr, hco⟩, hca⟩ := h.lease t ht
    refine ⟨⟨tip, rfl, (hff r hr).trans hco⟩, fun hba => ?_⟩
    cases hba
    have hsa : r = tip := hco.antisymm (hff r hr)
    subst hsa
    have hno : s.newCommits r = [] := by
      unfold newCommits
      rw [filter_eq_nil_iff]
      intro c hc hnew
      rw [decide_eq_true_eq] at hnew
      exact hnew r hr (mem_history.mp hc)
    rw [hno, append_nil]
    exact hca hr

theorem rebaseOnto {upstream : Nat} (hup : upstream < s.graph.size)
    (hle : ∀ t, phase = .prRebased (some t) →
      (∃ r ∈ s.remote, s.graph.Contains r t) ∧ (s.remote = some t → ∀ c ∈ s.pushed,
        (s.rebaseOnto upstream).graph.Carries (s.rebaseOnto upstream).localTip c)) :
    Sound { s.rebaseOnto upstream with phase := phase } := by
  obtain ⟨had, -⟩ := rebase_picks h.localTip hup
  have hph : ∀ t, Phase.idle ≠ .prRebased (some t) := nofun
  have hid := (h.idle.extend had.extends').setLocalTip had.bound hph
  refine hid.setPhase fun t ht => ?_
  obtain ⟨⟨r, hr, hco⟩, hca⟩ := hle t ht
  exact ⟨⟨r, hr, had.extends'.contains hco⟩, hca⟩

/-- A step that is not allowed where the call is keeps everything. -/
theorem ifThen {guard : Prop} [Decidable guard] {next : SharedBranch} (hne : guard → Sound next) :
    Sound (if guard then next else s) := by
  split
  case isTrue hgu => exact hne hgu
  · exact h

/-- The rebase for a pull request keeps what others have pushed if it is integrated. -/
theorem prRebase (ok : Bool) (hok : s.Integrated (.prRebase ok)) :
    Sound (s.step (.prRebase ok)) := by
  refine h.ifThen fun hph => ?_
  split
  · exact h.idle
  refine h.rebaseOnto h.trackingBase fun t ht => ?_
  have htg : s.tracking = some t := by
    simpa using ht
  refine ⟨h.known t htg, fun hre c hc => ?_⟩
  obtain ⟨r, hr, hca⟩ := h.kept c hc
  rw [hre] at hr
  cases hr
  exact (rebase_carries_iff h.localTip h.trackingBase (h.pushed c hc)).mpr
    (hok hph c hc ⟨t, htg, hca⟩)

/-- The push under the lease delivers, or the branch is put back to where the remote was. -/
theorem prPush (ok : Bool) : Sound (s.step (.prPush ok)) := by
  dsimp only [step]
  split
  · rename_i remoteSha hph
    split
    case isTrue hpu =>
      cases remoteSha with
      | some t => exact h.deliver ((h.lease t hph).2 hpu.2)
      | none => exact h.deliver (h.carries_of_fastForward hpu.2)
    · refine h.setLocalTip ?_ (nofun)
      cases htg : s.tracking with
      | none => exact h.localTip
      | some => exact h.tracking_lt htg
  · exact h

/-- **One step.** Only a rebase for a pull request and a forced push have to be asked whether the
commits of others are integrated. -/
theorem step (i : Step) (hok : s.Integrated i) : Sound (s.step i) := by
  cases i with
  | commit => exact h.extend (.commit _ _ _)
  | checkout =>
    refine h.ifThen fun hid => h.setLocalTip hid.2 fun t ht => ?_
    rw [hid.1] at ht
    cases ht
  | fetch => exact h.fetchBranch
  | othersPush => exact h.ifThen fun hpu => h.othersPush hpu.1 hpu.2
  | basePush => exact h.ifThen fun htip => { h with remoteBase := htip }
  | directFetch ok =>
    refine h.ifThen fun _ => ?_
    cases ok with
    | true => exact h.fetchBranch.setPhase nofun
    | false => exact h.setPhase nofun
  | directPush | recoveryRetry =>
    exact h.ifThen fun _ => h.pushIf fun hac => h.carries_of_fastForward hac.2
  | recoveryPush answer =>
    refine h.ifThen fun _ => ?_
    cases answer with
    | accepted =>
      dsimp only
      split
      case isTrue hff => exact h.deliver (h.carries_of_fastForward hff)
      · exact h.setPhase nofun
    | rejected => exact h.setPhase nofun
    | failed => exact h
  | recoveryFetch ok =>
    refine h.ifThen fun _ => ?_
    cases ok with
    | true =>
      have hba : Sound { s.fetchBranch with trackingBase := s.remoteBase } :=
        { h.fetchBranch with trackingBase := h.remoteBase }
      exact hba.setPhase nofun
    | false => exact h.idle
  | recoveryRebase ok =>
    refine h.ifThen fun _ => ?_
    split
    · exact h.setPhase nofun
    rename_i upstream htg
    cases ok with
    | true => exact h.rebaseOnto (h.tracking_lt htg) nofun
    | false => exact h.idle
  | recoveryForce => exact h.ifThen fun hph => h.pushIf fun _ => hok hph
  | prFetch ok =>
    refine h.ifThen fun _ => ?_
    cases ok with
    | true =>
      have hba : Sound { s with trackingBase := s.remoteBase } :=
        { h with trackingBase := h.remoteBase }
      exact hba.setPhase nofun
    | false => exact h
  | prRebase ok => exact h.prRebase ok hok
  | prPush ok => exact h.prPush ok

/-- A rebase that is pushed under the lease loses what it has not integrated. -/
theorem prPush_iff (hph : s.phase = .prFetched)
    (hbe : ¬ s.graph.Contains s.localTip s.trackingBase) (hle : s.tracking = s.remote) :
    (runFrom .step s [.prRebase true, .prPush true]).NothingLost ↔
      s.Integrated (.prRebase true) := by
  have hrb : s.step (.prRebase true) =
      { s.rebaseOnto s.trackingBase with phase := .prRebased s.tracking } := by
    dsimp only [SharedBranch.step]
    rw [if_pos hph, if_neg (by simp [hbe])]
  rw [runFrom_cons, runFrom_cons, hrb]
  cases hre : s.remote with
  | none =>
    -- nobody has pushed yet
    have hno : s.pushed = [] := by
      rw [eq_nil_iff_forall_not_mem]
      intro c hc
      obtain ⟨r, hr, -⟩ := h.kept c hc
      rw [hre] at hr
      cases hr
    refine iff_of_true (fun c hc => ?_) (fun _ c hc => ?_)
    · have hpu : c ∈ s.pushed := by
        dsimp only [SharedBranch.step] at hc
        split at hc <;> exact hc
      rw [hno] at hpu
      cases hpu
    · rw [hno] at hc
      cases hc
  | some t =>
    have hps : ({ s.rebaseOnto s.trackingBase with phase := .prRebased s.tracking } :
        SharedBranch).step (.prPush true) = (s.rebaseOnto s.trackingBase).deliver := by
      dsimp only [SharedBranch.step]
      rw [hle, hre, if_pos ⟨rfl, hre⟩]
      rfl
    rw [hps]
    have hca : ∀ c ∈ s.pushed, ∃ t ∈ s.tracking, s.graph.Carries t c := by
      rw [hle]
      exact h.kept
    constructor
    · intro hke _ c hc _
      obtain ⟨r, hr, hcr⟩ := hke c hc
      cases hr
      exact (rebase_carries_iff h.localTip h.trackingBase (h.pushed c hc)).mp hcr
    · intro hok c hc
      refine ⟨_, rfl, ?_⟩
      exact (rebase_carries_iff h.localTip h.trackingBase (h.pushed c hc)).mpr
        (hok hph c hc (hca c hc))

omit h

theorem recoveryForce_iff (hph : s.phase = .noUpstream) :
    (s.step (.recoveryForce true)).NothingLost ↔ s.Integrated (.recoveryForce true) := by
  have hfo : s.step (.recoveryForce true) = s.deliver := by
    dsimp only [SharedBranch.step]
    rw [if_pos hph]
    rfl
  rw [hfo]
  constructor
  · intro hke _ c hc
    obtain ⟨r, hr, hcr⟩ := hke c hc
    cases hr
    exact hcr
  · intro hok c hc
    exact ⟨s.localTip, rfl, hok hph c hc⟩

end Sound

/-- **Nobody else's work is lost**, at any point of any interleaving of syncs, rebases for pull
requests and pushes by others, in which forced pushes find the commits of others integrated; and
the first forced push that does not find them so loses some. -/
theorem nothing_lost (tracks : Bool) (steps : List Step)
    (hrun : Guarded step Integrated (start tracks) steps) (done : List Step)
    (hdone : done <+: steps) : let s := runFrom step (start tracks) done
    s.NothingLost ∧
    (s.phase = .prFetched → ¬ s.graph.Contains s.localTip s.trackingBase → s.tracking = s.remote →
      ((runFrom step s [.prRebase true, .prPush true]).NothingLost ↔
        s.Integrated (.prRebase true))) ∧
    (s.phase = .noUpstream →
      ((s.step (.recoveryForce true)).NothingLost ↔ s.Integrated (.recoveryForce true))) := by
  have hso : Sound (runFrom step (start tracks) done) :=
    hrun.throughout (fun _ i h hok => h.step i hok) (.start tracks) hdone
  exact ⟨hso.kept, hso.prPush_iff, Sound.recoveryForce_iff⟩

/-- Somebody adds a commit to a branch, the run builds on it, and then the branch is rebased. -/
def integratingRun : List Step :=
  [.commit [0] none, .checkout 1, .recoveryPush .accepted, .commit [1] none, .othersPush 2, .fetch,
    .commit [2] none, .checkout 3, .recoveryPush .accepted, .commit [0] none, .basePush 4,
    .prFetch true, .prRebase true, .prPush true]

theorem nothing_lost_integrating : (runFrom step (start true) integratingRun).pushed = [2] ∧
    (runFrom step (start true) integratingRun).remote = some 7 ∧
    (runFrom step (start true) integratingRun).NothingLost :=
  ⟨by decide +kernel, by decide +kernel,
    (nothing_lost true integratingRun (by decide +kernel) integratingRun (prefix_rfl)).1⟩

/-- A direct push fetches the commit of somebody else and is refused; the rebase for the pull
request then holds a lease on that commit. -/
def leasedAway : List Step :=
  [.commit [0] none, .checkout 1, .recoveryPush .accepted, .commit [1] none, .othersPush 2,
    .commit [1] none, .checkout 3, .directFetch true, .directPush true, .commit [0] none,
    .basePush 4, .prFetch true, .prRebase true, .prPush true]

/-- In a shallow clone there is no tracking ref to rebase on. -/
def forcedAway : List Step :=
  [.commit [0] none, .checkout 1, .recoveryPush .accepted, .commit [1] none, .othersPush 2,
    .commit [1] none, .checkout 3, .recoveryPush .accepted, .recoveryFetch true,
    .recoveryRebase true, .recoveryForce true]

/-- Both lose the commit that somebody else has pushed. -/
theorem others_work_lost : ((runFrom step (start true) leasedAway).pushed = [2] ∧
      ¬ (runFrom step (start true) leasedAway).NothingLost) ∧
    ((runFrom step (start false) forcedAway).pushed = [2] ∧
      ¬ (runFrom step (start false) forcedAway).NothingLost) := by
  decide +kernel

end SharedBranch

end Orchestratord.Sync
