import Orchestratord.Foundation.Kahn

/-! # Execution waves

The tasks of a plan are put into waves: all tasks whose dependencies are in earlier waves are ready
together, and a layer of ready tasks is cut into waves of bounded size. -/

namespace Orchestratord.Planner

open Foundation List

/-- The ids are of one type, the texts of another: a model may write either in any form. -/
structure Subtask (ι τ : Type) where
  id : ι
  title : τ
  description : τ
  dependsOn : List ι := []
  verification : τ
  affectedFiles : List ι := []

/-- The slices that start at the multiples of `n`. -/
def slices {α : Type} (n : ℕ) (l : List α) : List (List α) :=
  (range ((l.length + n - 1) / n)).map fun k => (l.drop (k * n)).take n

inductive WaveError where
  | cycle
  /-- The loop has made more passes than there are tasks. -/
  | endless
  deriving DecidableEq

variable {ι τ : Type} [LinearOrder ι]

def isReady (completed : List ι) (task : Subtask ι τ) : Bool := task.dependsOn.all (· ∈ completed)

def readyIds (remaining : List (Subtask ι τ)) (completed : List ι) : List ι :=
  ((remaining.filter (isReady completed)).map Subtask.id).insertionSort (· ≤ ·)

/-- The ids are distinct, so the table of the remaining tasks is their list, and to take the ready
ids out of it is to take out the ready tasks. -/
def waveLoop (maxParallel : ℕ) : ℕ → List (Subtask ι τ) → List ι → Except WaveError (List (List ι))
  | _, [], _ => .ok []
  | 0, _ :: _, _ => .error .endless
  | passes + 1, task :: rest, completed =>
    let ready := readyIds (task :: rest) completed
    if ready = [] then .error .cycle
    else
      let remaining := (task :: rest).filter (! isReady completed ·)
      (waveLoop maxParallel passes remaining (completed ++ ready)).map
        (slices maxParallel ready ++ ·)

def buildWaves (subtasks : List (Subtask ι τ)) (maxParallel : ℕ) :
    Except WaveError (List (List ι)) :=
  waveLoop maxParallel subtasks.length subtasks []

/-! ## Slices -/

section

variable {α : Type} {n : ℕ} {l : List α}

theorem flatten_slices (hn : 1 ≤ n) (l : List α) : (slices n l).flatten = l := by
  have hta (k : ℕ) : ((range k).map fun k => (l.drop (k * n)).take n).flatten = l.take (k * n) := by
    induction k with
    | zero => simp
    | succ _ ih => simp [range_succ, ih, Nat.succ_mul, take_add]
  have hle : l.length ≤ (l.length + n - 1) / n * n := by
    have := Nat.lt_div_mul_add (a := l.length + n - 1) hn
    omega
  rw [slices, hta, take_of_length_le hle]

theorem length_of_mem_slices (hn : 1 ≤ n) {part : List α} (h : part ∈ slices n l) :
    1 ≤ part.length ∧ part.length ≤ n := by
  obtain ⟨k, hk, rfl⟩ := mem_map.mp h
  have hlt := (Nat.lt_div_iff_mul_lt hn).mp (mem_range.mp hk)
  rw [length_take, length_drop]
  omega

end

/-! ## Order -/

variable (subtasks : List (Subtask ι τ))

/-- The dependencies of the task of an id. -/
def depsOf (i : ι) : List ι := ((subtasks.find? (·.id = i)).map Subtask.dependsOn).getD []

/-- Some dependency is no task, or a task depends on itself, perhaps through others. -/
def Unorderable : Prop :=
  (∃ t ∈ subtasks, ∃ d ∈ t.dependsOn, d ∉ subtasks.map Subtask.id) ∨
    ∃ i, Relation.TransGen (Depends (depsOf subtasks)) i i

variable {subtasks : List (Subtask ι τ)}

theorem depsOf_of_mem (hnd : (subtasks.map Subtask.id).Nodup) {t : Subtask ι τ}
    (ht : t ∈ subtasks) : depsOf subtasks t.id = t.dependsOn := by
  obtain ⟨found, hfo⟩ : ∃ found, subtasks.find? (·.id = t.id) = some found :=
    Option.isSome_iff_exists.mp (find?_isSome.mpr ⟨t, ht, by simp⟩)
  have hid : found.id = t.id := by simpa using find?_some hfo
  rw [depsOf, hfo, inj_on_of_nodup_map hnd (mem_of_find?_eq_some hfo) ht hid]
  rfl

theorem mem_ids_of_depsOf {i d : ι} (h : d ∈ depsOf subtasks i) : i ∈ subtasks.map Subtask.id := by
  cases hfo : subtasks.find? (·.id = i) with
  | none => simp [depsOf, hfo] at h
  | some t => exact mem_map.mpr ⟨t, mem_of_find?_eq_some hfo, by simpa using find?_some hfo⟩

section

omit [LinearOrder ι]

/-- Every dependency of a task of a wave is among the earlier ones. -/
def InOrder (deps : ι → List ι) : List ι → List (List ι) → Prop
  | _, [] => True
  | earlier, wave :: rest =>
    (∀ i ∈ wave, ∀ d ∈ deps i, d ∈ earlier) ∧ InOrder deps (earlier ++ wave) rest

variable {deps : ι → List ι} {earlier : List ι} {waves : List (List ι)}

theorem inOrder_append (earlier : List ι) (first later : List (List ι)) :
    InOrder deps earlier (first ++ later) ↔
      InOrder deps earlier first ∧ InOrder deps (earlier ++ first.flatten) later := by
  induction first generalizing earlier with
  | nil => simp [InOrder]
  | cons _ _ ih => simp [InOrder, ih, and_assoc]

/-- A layer may be cut in any way. -/
theorem inOrder_of_flatten (h : ∀ i ∈ waves.flatten, ∀ d ∈ deps i, d ∈ earlier) :
    InOrder deps earlier waves := by
  induction waves generalizing earlier with
  | nil => trivial
  | cons _ _ ih =>
    refine ⟨fun i hi => h i (mem_append_left _ hi), ih fun i hi d hd => ?_⟩
    exact mem_append_left _ (h i (mem_append_right _ hi) d hd)

theorem InOrder.depsBefore (h : InOrder deps earlier waves) (hbe : DepsBefore deps earlier) :
    DepsBefore deps (earlier ++ waves.flatten) := by
  induction waves generalizing earlier with
  | nil => simpa using hbe
  | cons wave _ ih =>
    rw [flatten_cons, ← append_assoc]
    apply ih h.2
    obtain ⟨hwave, -⟩ := h
    induction wave using reverseRecOn with
    | nil => simpa using hbe
    | append_singleton _ i ih' =>
      rw [← append_assoc]
      refine depsBefore_snoc (ih' fun j hj => hwave j (mem_append_left _ hj)) fun d hd => ?_
      exact mem_append_left _ (hwave i (by simp) d hd)

end

/-! ## The loop -/

/-- What holds at the start of a pass. -/
structure Progress (subtasks remaining : List (Subtask ι τ)) (completed : List ι) : Prop where
  subset : remaining ⊆ subtasks
  perm : (completed ++ remaining.map Subtask.id).Perm (subtasks.map Subtask.id)

namespace Progress

variable {remaining : List (Subtask ι τ)} {completed : List ι}
  (hnd : (subtasks.map Subtask.id).Nodup) (h : Progress subtasks remaining completed)

include hnd h

/-- Tasks remain and none of them is ready. -/
theorem unorderable (hre : remaining ≠ []) (hno : readyIds remaining completed = []) :
    Unorderable subtasks := by
  by_contra hor
  rw [Unorderable, not_or] at hor
  push Not at hor
  obtain ⟨hcl, hac⟩ := hor
  -- one of them depends on no other
  let below (x y : {i // i ∈ remaining.map Subtask.id}) : Prop :=
    Relation.TransGen (Depends (depsOf subtasks)) y.1 x.1
  have : Std.Irrefl below := ⟨fun x => hac x.1⟩
  obtain ⟨t₀, ht₀⟩ := exists_mem_of_ne_nil remaining hre
  obtain ⟨⟨_, hm⟩, -, hmin⟩ := (Finite.wellFounded_of_trans_of_irrefl below).has_min Set.univ
    ⟨⟨t₀.id, mem_map_of_mem ht₀⟩, trivial⟩
  obtain ⟨t, ht, rfl⟩ := mem_map.mp hm
  have hready : isReady completed t := by
    refine all_eq_true.mpr fun d hd => decide_eq_true ?_
    have hmem := h.perm.mem_iff.mpr (hcl t (h.subset ht) d hd)
    refine (mem_append.mp hmem).resolve_right fun hop => hmin ⟨d, hop⟩ trivial (.single ?_)
    rwa [Depends, depsOf_of_mem hnd (h.subset ht)]
  have hmem : t.id ∈ readyIds remaining completed :=
    (perm_insertionSort ..).mem_iff.mpr (mem_map_of_mem (mem_filter.mpr ⟨ht, hready⟩))
  simp [hno] at hmem

/-- The ready tasks are completed. -/
theorem next : (∀ i ∈ readyIds remaining completed, ∀ d ∈ depsOf subtasks i, d ∈ completed) ∧
    Progress subtasks (remaining.filter (! isReady completed ·))
      (completed ++ readyIds remaining completed) := by
  have hpe : (readyIds remaining completed).Perm _ := perm_insertionSort (· ≤ ·) _
  refine ⟨fun i hi d hd => ?_, fun t ht => h.subset (mem_of_mem_filter ht), ?_⟩
  · obtain ⟨t, ht, rfl⟩ := mem_map.mp (hpe.mem_iff.mp hi)
    obtain ⟨ht, hready⟩ := mem_filter.mp ht
    rw [depsOf_of_mem hnd (h.subset ht)] at hd
    exact of_decide_eq_true (all_eq_true.mp hready d hd)
  · rw [append_assoc]
    refine (Perm.append_left completed ((hpe.append_right _).trans ?_)).trans h.perm
    rw [← map_append]
    exact (filter_append_perm _ _).map _

end Progress

/-- The waves from some pass on, or the reason why there are none. -/
theorem waveLoop_spec {maxParallel passes : ℕ} (hnd : (subtasks.map Subtask.id).Nodup)
    (hma : 1 ≤ maxParallel) {remaining : List (Subtask ι τ)} {completed : List ι}
    (h : Progress subtasks remaining completed) (hle : remaining.length ≤ passes) :
    match waveLoop maxParallel passes remaining completed with
    | .ok waves => (completed ++ waves.flatten).Perm (subtasks.map Subtask.id) ∧
        (∀ wave ∈ waves, 1 ≤ wave.length ∧ wave.length ≤ maxParallel) ∧
        InOrder (depsOf subtasks) completed waves
    | .error e => e = .cycle ∧ Unorderable subtasks := by
  induction passes generalizing remaining completed with
  | zero =>
    obtain rfl := eq_nil_of_length_eq_zero (Nat.le_zero.mp hle)
    simpa [waveLoop, InOrder] using h.perm
  | succ passes ih =>
    rcases remaining with _ | ⟨task, rest⟩
    · simpa [waveLoop, InOrder] using h.perm
    rw [waveLoop]
    by_cases hno : readyIds (task :: rest) completed = []
    · rw [if_pos hno]
      exact ⟨rfl, h.unorderable hnd (cons_ne_nil _ _) hno⟩
    rw [if_neg hno]
    obtain ⟨hlay, hnext⟩ := h.next hnd
    have hlt : ((task :: rest).filter (! isReady completed ·)).length < (task :: rest).length := by
      obtain ⟨i, hi⟩ := exists_mem_of_ne_nil _ hno
      obtain ⟨t, ht, -⟩ := mem_map.mp ((perm_insertionSort ..).mem_iff.mp hi)
      obtain ⟨ht, hready⟩ := mem_filter.mp ht
      exact length_filter_lt_length_iff_exists.mpr ⟨t, ht, by simp [hready]⟩
    have hrec := ih hnext (by omega)
    revert hrec
    dsimp only
    generalize waveLoop (ι := ι) maxParallel passes _ _ = out
    rcases out with _ | _
    · exact id
    rintro ⟨hpe, hsi, hin⟩
    have hfl := flatten_slices hma (readyIds (task :: rest) completed)
    refine ⟨?_, ?_, (inOrder_append ..).mpr ⟨inOrder_of_flatten ?_, ?_⟩⟩
    · rwa [flatten_append, hfl, ← append_assoc]
    · intro wave hw
      rcases mem_append.mp hw with hw | hw
      · exact length_of_mem_slices hma hw
      · exact hsi wave hw
    · rwa [hfl]
    · rwa [hfl]

/-- With distinct ids and room for a task in a wave, the waves are built unless a dependency is
unknown or there is a cycle. They partition the ids, none is empty or too large, and every
dependency of a task is in a strictly earlier wave. -/
theorem buildWaves_correct (subtasks : List (Subtask ι τ)) (maxParallel : ℕ)
    (hnd : (subtasks.map Subtask.id).Nodup) (hma : 1 ≤ maxParallel) :
    (buildWaves subtasks maxParallel = .error .cycle ↔ Unorderable subtasks) ∧
      (¬ Unorderable subtasks → ∃ waves, buildWaves subtasks maxParallel = .ok waves ∧
        waves.flatten.Perm (subtasks.map Subtask.id) ∧
        (∀ wave ∈ waves, 1 ≤ wave.length ∧ wave.length ≤ maxParallel) ∧
        InOrder (depsOf subtasks) [] waves) := by
  have hstart : Progress subtasks subtasks [] := ⟨Subset.refl _, .refl _⟩
  have hspec := waveLoop_spec hnd hma hstart le_rfl
  rw [buildWaves]
  revert hspec
  cases waveLoop maxParallel subtasks.length subtasks [] with
  | error =>
    rintro ⟨rfl, hun⟩
    exact ⟨iff_of_true rfl hun, fun hno => absurd hun hno⟩
  | ok waves =>
    rintro ⟨hpe, hsi, hin⟩
    have hbe := hin.depsBefore (by intro pre x post heq; simp at heq)
    refine ⟨iff_of_false nofun ?_, fun _ => ⟨waves, rfl, hpe, hsi, hin⟩⟩
    rintro (⟨t, ht, d, hd, hno⟩ | ⟨i, hcy⟩)
    · obtain ⟨pre, post, heq⟩ := append_of_mem (hpe.mem_iff.mpr (mem_map_of_mem ht))
      rw [← depsOf_of_mem hnd ht] at hd
      have hmem := heq ▸ mem_append_left _ (hbe pre t.id post heq d hd)
      exact hno (hpe.mem_iff.mp hmem)
    · obtain ⟨d, hd, -⟩ := Relation.TransGen.head'_iff.mp hcy
      have hmem := hpe.mem_iff.mpr (mem_ids_of_depsOf hd)
      exact hbe.acyclic (hpe.nodup_iff.mpr hnd) hmem hcy

/-- Three tasks, the last after the others. -/
def fanIn : List (Subtask String String) :=
  [⟨"a", "", "", [], "", []⟩, ⟨"b", "", "", [], "", []⟩, ⟨"c", "", "", ["a", "b"], "", []⟩]

theorem fanIn_correct : ¬ Unorderable fanIn ∧ buildWaves fanIn 2 = .ok [["a", "b"], ["c"]] := by
  have hok : buildWaves fanIn 2 = .ok [["a", "b"], ["c"]] := by decide +kernel
  have hcorrect := buildWaves_correct fanIn 2 (by decide) (by decide)
  exact ⟨fun hun => absurd (hok.symm.trans (hcorrect.1.mpr hun)) nofun, hok⟩

end Orchestratord.Planner
