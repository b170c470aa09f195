import Orchestratord.Foundation.Recency
import Orchestratord.Workflow.RollbackCorrect

/-!
# Which snapshots pruning keeps

The rollback manager keeps at most `max_snapshots` snapshots and means to keep the most recent
ones. Pruning orders them by stage id instead. Along a workflow that goes through its stages once,
in the order of their ids, the two orders agree; after a rollback they may not, and the snapshot
just written can be the one that goes.
-/

namespace Orchestratord.Workflow

open Foundation RollbackManager Dict
open List hiding getElem?_eq_some_iff

/-! ## §1 A history of saves -/

/-- One call of `save_snapshot`. The stages and rollbacks before it left `tree` in the
workspace. -/
structure Save where
  tree : Tree
  stageId : Int
  stageName : String

structure SaveHistory where
  manager : RollbackManager
  /-- The stages whose save succeeded, without repetition, the last one at the front. -/
  recent : List Int
  /-- What the last save returned. -/
  written : Option StageSnapshot

namespace RollbackManager

variable (m : RollbackManager)

def saveAt (s : Save) : RollbackManager × Option StageSnapshot :=
  { m with workspace := some s.tree }.saveSnapshot s.stageId s.stageName

/-- The manager knows the snapshot and its directory is there. -/
def Retained (stageId : Int) : Prop :=
  (m.snapshots.get stageId).isSome ∧ (m.stored.get stageId).isSome

instance (stageId : Int) : Decidable (m.Retained stageId) :=
  inferInstanceAs (Decidable (_ ∧ _))

end RollbackManager

namespace SaveHistory

def start (workspace : Option Tree) (maxSnapshots : Int) : SaveHistory :=
  ⟨.start workspace maxSnapshots, [], none⟩

variable (h : SaveHistory) (s : Save)

def save : SaveHistory :=
  let out := h.manager.saveAt s
  { manager := out.1
    recent := if out.2.isSome then touch s.stageId h.recent else h.recent
    written := out.2 }

def limit : ℕ := h.manager.maxSnapshots.toNat

/-- The stages that were saved most recently, as many as may be kept. -/
def mostRecent : List Int := h.recent.take h.limit

/-- What pruning is for. -/
structure KeepsRecent : Prop where
  written : ∀ snapshot, h.written = some snapshot →
    h.manager.snapshots.get snapshot.stageId = some snapshot ∧
      (h.manager.stored.get snapshot.stageId).isSome
  retained : ∀ stageId, h.manager.Retained stageId ↔ stageId ∈ h.mostRecent

/-- The copy of the workspace comes to its end, the stage has no snapshot, and there are as many
snapshots as may be kept: `oldest` has to go. -/
def Replaces (oldest : Int) : Prop :=
  (copyOf h.manager s.stageId s.tree).2 = true ∧ s.stageId ∉ h.mostRecent ∧
    h.recent[h.limit - 1]? = some oldest

/-- The least recently saved of a full set of snapshots has the smallest id of all, also of the
one to be saved. -/
def OldestIsLeast : Prop :=
  ∀ oldest, h.Replaces s oldest → ∀ kept ∈ s.stageId :: h.recent.take (h.limit - 1), oldest < kept

/-- What holds of every history whose limit is `n`. -/
structure Sound (n : Int) (h : SaveHistory) : Prop where
  limit : h.manager.maxSnapshots = n
  nodup : h.recent.Nodup
  stored : ∀ stageId, (h.manager.snapshots.get stageId).isSome →
    (h.manager.stored.get stageId).isSome

end SaveHistory

/-! ## §2 Pruning -/

variable {stageId : Int} {s : Save}

namespace RollbackManager

variable {m : RollbackManager}

theorem mem_keys_snapshots :
    stageId ∈ m.snapshots.entries.map Prod.fst ↔ (m.snapshots.get stageId).isSome := by
  rw [← not_iff_not, ← lookup_eq_none, Option.not_isSome_iff_eq_none]
  exact .rfl

@[simp] theorem pruneOldSnapshots_maxSnapshots (m : RollbackManager) :
    m.pruneOldSnapshots.maxSnapshots = m.maxSnapshots := by
  unfold pruneOldSnapshots
  split <;> rfl

/-- What pruning removes it removes from the disk and from memory alike. -/
theorem isSome_stored_pruneOldSnapshots
    (h : ∀ stageId, (m.snapshots.get stageId).isSome → (m.stored.get stageId).isSome)
    (stageId : Int) : (m.pruneOldSnapshots.snapshots.get stageId).isSome →
      (m.pruneOldSnapshots.stored.get stageId).isSome := by
  unfold pruneOldSnapshots
  split
  · exact h stageId
  simp only [get_foldl_erase]
  split
  · rintro ⟨⟩
  · exact h stageId

theorem pruneOldSnapshots_of_le (h : (m.snapshots.size : Int) ≤ m.maxSnapshots) :
    m.pruneOldSnapshots = m := if_pos h

/-- One snapshot too many: the one of the smallest stage id goes. -/
theorem pruneOldSnapshots_of_eq (hli : 0 ≤ m.maxSnapshots)
    (h : (m.snapshots.size : Int) = m.maxSnapshots + 1) : ∃ least, (m.snapshots.get least).isSome ∧
      (∀ stageId, (m.snapshots.get stageId).isSome → least ≤ stageId) ∧ m.pruneOldSnapshots =
        { m with stored := m.stored.erase least, snapshots := m.snapshots.erase least } := by
  have hpe := perm_insertionSort (· ≤ ·) (m.snapshots.entries.map Prod.fst)
  have hso := pairwise_insertionSort (· ≤ ·) (m.snapshots.entries.map Prod.fst)
  have hone : ((m.snapshots.size : Int) - m.maxSnapshots).toNat = 1 := by omega
  have hmo : ¬ (m.snapshots.size : Int) ≤ m.maxSnapshots := by omega
  rw [pruneOldSnapshots, if_neg hmo, hone]
  cases hids : (m.snapshots.entries.map Prod.fst).insertionSort (· ≤ ·) with
  | nil =>
    have hle := hpe.length_eq
    rw [hids, length_nil, length_map] at hle
    rw [size] at h
    omega
  | cons least rest =>
    rw [hids] at hpe hso
    refine ⟨least, mem_keys_snapshots.mp (hpe.subset mem_cons_self), ?_, rfl⟩
    intro _ hst
    rcases mem_cons.mp (hpe.mem_iff.mpr (mem_keys_snapshots.mpr hst)) with rfl | hre
    · exact le_refl _
    · exact rel_of_pairwise_cons hso hre

/-- A copy that breaks off leaves the snapshots that the manager knows as they are. -/
theorem saveAt_of_broken (hco : (copyOf m s.stageId s.tree).2 = false) : m.saveAt s = ({ m with
      workspace := some s.tree
      stored := m.stored.set s.stageId (copyOf m s.stageId s.tree).1.dest }, none) := by
  unfold copyOf at *
  simp [saveAt, saveSnapshot, hco]

/-- The snapshot that a complete copy is recorded as. -/
def snapshotOf (m : RollbackManager) (s : Save) : StageSnapshot :=
  ⟨s.stageId, s.stageName, (copyOf m s.stageId s.tree).1.files,
    (copyOf m s.stageId s.tree).1.totalSize⟩

/-- The manager with a new snapshot, before pruning. -/
def withSnapshot (m : RollbackManager) (s : Save) : RollbackManager :=
  { m with
    workspace := some s.tree
    stored := m.stored.set s.stageId (copyOf m s.stageId s.tree).1.dest
    snapshots := m.snapshots.set s.stageId (m.snapshotOf s) }

theorem saveAt_of_copied (hco : (copyOf m s.stageId s.tree).2 = true) :
    m.saveAt s = ((m.withSnapshot s).pruneOldSnapshots, some (m.snapshotOf s)) := by
  unfold withSnapshot snapshotOf copyOf at *
  simp [saveAt, saveSnapshot, hco]

theorem isSome_snapshots_withSnapshot : ((m.withSnapshot s).snapshots.get stageId).isSome ↔
      stageId = s.stageId ∨ (m.snapshots.get stageId).isSome := by
  show ((m.snapshots.set s.stageId _).get stageId).isSome ↔ _
  by_cases h : stageId = s.stageId <;> simp [h]

theorem isSome_stored_withSnapshot : ((m.withSnapshot s).stored.get stageId).isSome ↔
      stageId = s.stageId ∨ (m.stored.get stageId).isSome := by
  show ((m.stored.set s.stageId _).get stageId).isSome ↔ _
  by_cases h : stageId = s.stageId <;> simp [h]

end RollbackManager

/-! ## §3 One save -/

namespace SaveHistory

variable {n : Int} {h : SaveHistory}

theorem save_of_broken (hco : (copyOf h.manager s.stageId s.tree).2 = false) :
    h.save s = ⟨{ h.manager with
      workspace := some s.tree
      stored := h.manager.stored.set s.stageId (copyOf h.manager s.stageId s.tree).1.dest },
      h.recent, none⟩ := by
  rw [save, saveAt_of_broken hco]
  rfl

theorem save_of_copied (hco : (copyOf h.manager s.stageId s.tree).2 = true) :
    h.save s = ⟨(h.manager.withSnapshot s).pruneOldSnapshots, touch s.stageId h.recent,
      some (h.manager.snapshotOf s)⟩ := by
  rw [save, saveAt_of_copied hco]
  rfl

theorem Sound.retained_iff (hso : h.Sound n) :
    h.manager.Retained stageId ↔ (h.manager.snapshots.get stageId).isSome :=
  ⟨And.left, fun hkn => ⟨hkn, hso.stored stageId hkn⟩⟩

/-- The number of snapshots that the manager knows. -/
theorem KeepsRecent.size_eq (hke : h.KeepsRecent) (hso : h.Sound n) :
    h.manager.snapshots.size = h.mostRecent.length := by
  have hno : h.mostRecent.Nodup := hso.nodup.sublist (take_sublist _ _)
  have hpe : (h.manager.snapshots.entries.map Prod.fst).Perm h.mostRecent := by
    rw [perm_ext_iff_of_nodup h.manager.snapshots.nodup hno]
    intro _
    rw [mem_keys_snapshots, ← hso.retained_iff, hke.retained]
  rw [size, ← hpe.length_eq, length_map]

theorem Sound.save (hso : h.Sound n) (s : Save) : (h.save s).Sound n := by
  cases hco : (copyOf h.manager s.stageId s.tree).2 with
  | false =>
    rw [save_of_broken hco]
    refine ⟨hso.limit, hso.nodup, ?_⟩
    intro stageId hkn
    show ((h.manager.stored.set s.stageId _).get stageId).isSome
    rw [get_set]
    split
    · rfl
    · exact hso.stored stageId hkn
  | true =>
    rw [save_of_copied hco]
    refine ⟨?_, nodup_touch hso.nodup, ?_⟩
    · exact (pruneOldSnapshots_maxSnapshots _).trans hso.limit
    apply isSome_stored_pruneOldSnapshots
    intro stageId
    rw [isSome_snapshots_withSnapshot, isSome_stored_withSnapshot]
    exact .imp_right (hso.stored stageId)

/-- A save after which nothing has to go. -/
theorem KeepsRecent.of_unpruned (hso : h.Sound n) (hke : h.KeepsRecent)
    (hco : (copyOf h.manager s.stageId s.tree).2 = true)
    (hpr : (h.manager.withSnapshot s).pruneOldSnapshots = h.manager.withSnapshot s)
    (hre : ∀ stageId, stageId ∈ (touch s.stageId h.recent).take h.limit ↔
      stageId = s.stageId ∨ stageId ∈ h.mostRecent) : (h.save s).KeepsRecent := by
  have hsa := save_of_copied hco
  rw [hpr] at hsa
  constructor
  · rintro _ hwr
    rw [hsa] at hwr ⊢
    cases hwr
    exact ⟨get_set_self _ _ _, isSome_stored_withSnapshot.mpr (.inl rfl)⟩
  · intro stageId
    rw [(hso.save s).retained_iff, hsa]
    show _ ↔ stageId ∈ (touch s.stageId h.recent).take h.limit
    rw [hre, isSome_snapshots_withSnapshot, ← hso.retained_iff, hke.retained]

theorem Sound.limit_eq (hpos : 1 ≤ n) (hso : h.Sound n) : (h.limit : Int) = n := by
  rw [SaveHistory.limit, hso.limit]
  omega

theorem Sound.limit_save (hso : h.Sound n) (s : Save) : (h.save s).limit = h.limit := by
  rw [SaveHistory.limit, SaveHistory.limit, (hso.save s).limit, hso.limit]

namespace Replaces

variable {oldest : Int} (hreplaces : h.Replaces s oldest)

include hreplaces

/-- The snapshots before the save: the most recent ones and `oldest`. -/
theorem mostRecent_eq (hli : 0 < h.limit) :
    h.mostRecent = h.recent.take (h.limit - 1) ++ [oldest] := by
  obtain ⟨k, hk⟩ : ∃ k, h.limit = k + 1 := ⟨h.limit - 1, by omega⟩
  have hol := hreplaces.2.2
  rw [hk, Nat.add_sub_cancel] at hol ⊢
  rw [mostRecent, hk, take_add_one, hol]
  rfl

theorem length_mostRecent (hli : 0 < h.limit) : h.mostRecent.length = h.limit := by
  have hfu := (getElem?_eq_some_iff.mp hreplaces.2.2).1
  exact length_take_of_le (by omega)

/-- The snapshots that are to be there after the save. -/
theorem mostRecent_save (hso : h.Sound n) (hli : 0 < h.limit) :
    (h.save s).mostRecent = s.stageId :: h.recent.take (h.limit - 1) := by
  have hnew : s.stageId ∉ h.recent.take (h.limit - 1) := by
    intro hmem
    apply hreplaces.2.1
    rw [hreplaces.mostRecent_eq hli]
    exact mem_append_left _ hmem
  rw [mostRecent, hso.limit_save s, save_of_copied hreplaces.1, ← take_touch_of_notMem hnew,
    Nat.sub_add_cancel hli]

theorem oldest_notMem (hso : h.Sound n) (hli : 0 < h.limit) :
    oldest ∉ s.stageId :: h.recent.take (h.limit - 1) := by
  have hbe := hreplaces.mostRecent_eq hli
  have hno : (h.recent.take (h.limit - 1) ++ [oldest]).Nodup :=
    hbe ▸ hso.nodup.sublist (take_sublist _ _)
  rw [mem_cons, not_or]
  constructor
  · rintro rfl
    exact hreplaces.2.1 (hbe ▸ mem_append_right _ (mem_singleton_self _))
  · intro hmem
    exact (nodup_append.mp hno).2.2 _ hmem _ (mem_singleton_self _) rfl

/-- The snapshot of the smallest stage id goes. -/
theorem save_eq (hpos : 1 ≤ n) (hso : h.Sound n) (hke : h.KeepsRecent) :
    ∃ least ∈ s.stageId :: h.mostRecent, (∀ known ∈ s.stageId :: h.mostRecent, least ≤ known) ∧
      (h.save s).manager = { h.manager.withSnapshot s with
        stored := (h.manager.withSnapshot s).stored.erase least
        snapshots := (h.manager.withSnapshot s).snapshots.erase least } := by
  have hli := hso.limit_eq hpos
  have hkn : ∀ stageId, ((h.manager.withSnapshot s).snapshots.get stageId).isSome ↔
      stageId ∈ s.stageId :: h.mostRecent := by
    intro _
    rw [isSome_snapshots_withSnapshot, ← hso.retained_iff, hke.retained, mem_cons]
  have hnn : h.manager.snapshots.get s.stageId = none := by
    rw [← Option.not_isSome_iff_eq_none, ← hso.retained_iff, hke.retained]
    exact hreplaces.2.1
  have hsi : ((h.manager.withSnapshot s).snapshots.size : Int) =
      (h.manager.withSnapshot s).maxSnapshots + 1 := by
    show ((h.manager.snapshots.set _ _).size : Int) = h.manager.maxSnapshots + 1
    rw [size_set_of_none _ _ hnn, hke.size_eq hso,
      hreplaces.length_mostRecent (by omega), hso.limit]
    omega
  have hno : 0 ≤ (h.manager.withSnapshot s).maxSnapshots := by
    show 0 ≤ h.manager.maxSnapshots
    rw [hso.limit]
    omega
  obtain ⟨least, hmem, hle, hpr⟩ := pruneOldSnapshots_of_eq hno hsi
  refine ⟨least, (hkn least).mp hmem, fun id hid => hle id ((hkn id).mpr hid), ?_⟩
  rw [save_of_copied hreplaces.1, hpr]

/-- A save that replaces a snapshot keeps the most recent ones if and only if the one saved
longest ago has the smallest id. -/
theorem keepsRecent_save_iff (hpos : 1 ≤ n) (hso : h.Sound n) (hkp : h.KeepsRecent) :
    (h.save s).KeepsRecent ↔ ∀ kept ∈ s.stageId :: h.recent.take (h.limit - 1), oldest < kept := by
  have hli : 0 < h.limit := by
    have := hso.limit_eq hpos
    omega
  obtain ⟨least, hmem, hls, hma⟩ := hreplaces.save_eq hpos hso hkp
  have hot := hreplaces.oldest_notMem hso hli
  have hmo := hreplaces.mostRecent_save hso hli
  have hkn : ∀ stageId, stageId ∈ s.stageId :: h.mostRecent ↔
      stageId ∈ s.stageId :: h.recent.take (h.limit - 1) ∨ stageId = oldest := by
    intro _
    rw [hreplaces.mostRecent_eq hli, ← cons_append, mem_append, mem_singleton]
  have hre : ∀ stageId, (h.save s).manager.Retained stageId ↔
      stageId ≠ least ∧ stageId ∈ s.stageId :: h.mostRecent := by
    intro stageId
    rw [(hso.save s).retained_iff, hma]
    show (((h.manager.withSnapshot s).snapshots.erase least).get stageId).isSome ↔ _
    rw [mem_cons, ← hkp.retained, hso.retained_iff, ← isSome_snapshots_withSnapshot]
    by_cases heq : stageId = least <;> simp [heq]
  constructor
  · intro hke' kept hke
    -- `oldest` is not among the most recent, so it is the one that went
    have hgo : oldest = least := by
      by_contra hne
      have hst := (hre oldest).mpr ⟨hne, (hkn oldest).mpr (.inr rfl)⟩
      rw [hke'.retained, hmo] at hst
      exact hot hst
    have hle : least ≤ kept := hls kept ((hkn kept).mpr (.inl hke))
    rw [← hgo] at hle
    exact lt_of_le_of_ne hle fun heq => hot (heq ▸ hke)
  · intro hsm
    have hgo : least = oldest := by
      rcases (hkn least).mp hmem with hke | heq
      · have hle : least ≤ oldest := hls oldest ((hkn oldest).mpr (.inr rfl))
        exact absurd (hsm least hke) (not_lt.mpr hle)
      · exact heq
    subst hgo
    constructor
    · intro _ hwr
      rw [save_of_copied hreplaces.1] at hwr
      cases hwr
      have hne : s.stageId ≠ least := by
        rintro rfl
        exact hot mem_cons_self
      rw [hma]
      constructor
      · exact (get_erase_ne _ hne).trans (get_set_self _ _ _)
      · show (((h.manager.withSnapshot s).stored.erase least).get s.stageId).isSome
        rw [get_erase_ne _ hne]
        exact isSome_stored_withSnapshot.mpr (.inl rfl)
    · intro _
      rw [hre, hkn, hmo]
      constructor
      · rintro ⟨hne, hke | heq⟩
        · exact hke
        · exact absurd heq hne
      · intro hke
        exact ⟨fun heq => hot (heq ▸ hke), .inl hke⟩

end Replaces

/-- One save keeps the most recent snapshots exactly when it prunes the oldest one. -/
theorem KeepsRecent.save_iff (hpos : 1 ≤ n) (hso : h.Sound n) (hke : h.KeepsRecent)
    (s : Save) : (h.save s).KeepsRecent ↔ h.OldestIsLeast s := by
  have hli := hso.limit_eq hpos
  have hmax := hso.limit
  have hsi := hke.size_eq hso
  have hle : h.mostRecent.length ≤ h.limit := length_take_le _ _
  cases hco : (copyOf h.manager s.stageId s.tree).2 with
  | false =>
    refine iff_of_true ⟨?_, ?_⟩ ?_
    · intro _ hwr
      rw [save_of_broken hco] at hwr
      cases hwr
    · intro stageId
      rw [(hso.save s).retained_iff, save_of_broken hco]
      exact hso.retained_iff.symm.trans (hke.retained stageId)
    · rintro _ ⟨hcp, -⟩
      rw [hco] at hcp
      cases hcp
  | true =>
    by_cases hmem : s.stageId ∈ h.mostRecent
    · -- a snapshot that is there is written again
      refine iff_of_true (hke.of_unpruned hso hco ?_ ?_) ?_
      · have hkn := hso.retained_iff.mp ((hke.retained _).mpr hmem)
        apply pruneOldSnapshots_of_le
        show ((h.manager.snapshots.set _ _).size : Int) ≤ h.manager.maxSnapshots
        rw [size_set_of_isSome _ _ hkn]
        omega
      · intro _
        rw [(perm_take_touch_of_mem hmem).mem_iff]
        exact ⟨.inr, by rintro (rfl | hin); exacts [hmem, hin]⟩
      · rintro _ ⟨-, hnew, -⟩
        exact absurd hmem hnew
    · cases hol : h.recent[h.limit - 1]? with
      | some oldest =>
        have hreplaces : h.Replaces s oldest := ⟨hco, hmem, hol⟩
        rw [hreplaces.keepsRecent_save_iff hpos hso hke]
        constructor
        · rintro hsm _ ⟨-, -, hol'⟩
          cases hol.symm.trans hol'
          exact hsm
        · exact fun hls => hls oldest hreplaces
      | none =>
        -- there is room for one more
        have hro : h.recent.length ≤ h.limit - 1 := getElem?_eq_none_iff.mp hol
        refine iff_of_true (hke.of_unpruned hso hco ?_ ?_) ?_
        · have hnn : h.manager.snapshots.get s.stageId = none := by
            rwa [← Option.not_isSome_iff_eq_none, ← hso.retained_iff, hke.retained]
          apply pruneOldSnapshots_of_le
          show ((h.manager.snapshots.set _ _).size : Int) ≤ h.manager.maxSnapshots
          rw [size_set_of_none _ _ hnn, hsi, mostRecent, length_take]
          omega
        · intro _
          have hall : h.mostRecent = h.recent := take_of_length_le (by omega)
          rw [hall] at hmem ⊢
          rw [touch, erase_of_not_mem hmem, take_of_length_le, mem_cons]
          rw [length_cons]
          omega
        · rintro _ ⟨-, -, hfu⟩
          rw [hol] at hfu
          cases hfu

/-! ## §4 Sequences of saves -/

/-- After every save of a sequence the snapshot just written is there and the snapshots kept are
the most recent ones, if and only if every save that has to make room finds that the least
recently saved snapshot is the one of the smallest stage id. -/
theorem keepsRecent_throughout_iff (hpos : 1 ≤ n) (workspace : Option Tree) (saves : List Save) :
    (∀ done, done <+: saves → (runFrom save (start workspace n) done).KeepsRecent) ↔
      Guarded save OldestIsLeast (start workspace n) saves := by
  have hso : (start workspace n).Sound n := by
    refine ⟨rfl, nodup_nil, ?_⟩
    rintro _ ⟨⟩
  have hke : (start workspace n).KeepsRecent := by
    constructor
    · rintro _ ⟨⟩
    · intro _
      rw [mostRecent, start, take_nil]
      exact ⟨nofun, nofun⟩
  exact (Guarded.iff_throughout (fun _ s hh => hh.save s)
    (fun _ s hh hk => hk.save_iff hpos hh s) hso hke).symm

def sourceTree : Tree := empty.set "main.py" (.file "print(1)")

/-- Stages saved in the order of their ids. -/
def ascendingSaves : List Save := [⟨sourceTree, 1, "plan"⟩, ⟨sourceTree, 2, "build"⟩]

theorem keepsRecent_ascendingSaves :
    (runFrom save (start none 1) ascendingSaves).KeepsRecent := by
  refine (keepsRecent_throughout_iff (by decide) none ascendingSaves).mpr ⟨?_, ?_, trivial⟩ _
    (prefix_refl _)
  · rintro _ ⟨-, -, hfu⟩
    cases hfu
  have hli : ((start none 1).save ⟨sourceTree, 1, "plan"⟩).limit = 1 := by decide
  rintro _ ⟨-, -, hfu⟩ kept hke
  rw [hli] at hfu hke
  cases hfu
  obtain rfl : kept = 2 := by simpa using hke
  decide

/-- Stage 1 is saved again after a rollback. -/
def rolledBackSaves : List Save :=
  [⟨sourceTree, 1, "plan"⟩, ⟨sourceTree, 2, "build"⟩, ⟨sourceTree, 1, "plan"⟩]

/-- The snapshot just written is the one that is pruned. -/
theorem rolledBackSaves_prunes_written :
    (runFrom save (start none 1) rolledBackSaves).written.isSome ∧
      ¬ (runFrom save (start none 1) rolledBackSaves).manager.Retained 1 ∧
      (runFrom save (start none 1) rolledBackSaves).manager.Retained 2 := by
  decide

end SaveHistory

end Orchestratord.Workflow
