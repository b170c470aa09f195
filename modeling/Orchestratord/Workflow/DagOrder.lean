import Orchestratord.Workflow.Engine

/-!
# The engine's order is topological

`build_dag_order` is Kahn's algorithm on the stage list. When it succeeds, its
result lists every stage id once and each stage after all the stages it depends
on. It succeeds exactly when the dependencies name stages and form no cycle.
-/

namespace Orchestratord.Workflow

open Foundation
open List hiding getElem?_eq_some_iff

variable {s : StageNode} {dag : List Int} {i : Int}

namespace WorkflowSchema

variable (w : WorkflowSchema)

theorem getStage_some (h : w.getStage i = some s) : s ∈ w.stages ∧ s.id = i := by
  have hid := find?_some h
  exact ⟨mem_of_find?_eq_some h, of_decide_eq_true hid⟩

theorem getStage_of_mem (hs : s ∈ w.stages) : w.getStage s.id = some s := by
  cases hfo : w.getStage s.id with
  | none =>
    have := find?_eq_none.mp hfo s hs
    simp at this
  | some s' =>
    obtain ⟨hmem, hid⟩ := w.getStage_some hfo
    rw [inj_on_of_nodup_map w.distinct hmem hs hid]

theorem exists_getStage (hi : i ∈ w.stageIds) : ∃ s, w.getStage i = some s := by
  obtain ⟨s, hs, rfl⟩ := mem_map.mp hi
  exact ⟨s, w.getStage_of_mem hs⟩

theorem dependsOn_getStage (h : w.getStage i = some s) : w.dependsOn i = s.dependsOn := by
  simp [dependsOn, h]

theorem dependsOn_of_mem (hs : s ∈ w.stages) : w.dependsOn s.id = s.dependsOn :=
  w.dependsOn_getStage (w.getStage_of_mem hs)

theorem count_adjacency (stages : List StageNode) (hnd : (stages.map (·.id)).Nodup) (d n : Int) :
    (stages.flatMap (fun s =>
      (s.dependsOn.filter (fun dep => dep = d)).map (fun _ => s.id))).count n =
      (((stages.find? (fun s => s.id = n)).map (·.dependsOn)).getD []).count d := by
  induction stages with
  | nil => rfl
  | cons s rest ih =>
    obtain ⟨hs, hre⟩ := nodup_cons.mp hnd
    rw [flatMap_cons, count_append, ih hre, map_const', count_replicate]
    by_cases h : s.id = n
    · have hno : rest.find? (fun s => s.id = n) = none := by
        rw [find?_eq_none]
        intro x hx hxn
        have hid : x.id = s.id := (of_decide_eq_true hxn).trans h.symm
        exact hs (mem_map.mpr ⟨x, hx, hid⟩)
      rw [hno]
      simp [h, count, countP_eq_length_filter, BEq.beq]
    · simp [h]

theorem adjOf_adjacency : AdjOf w.stageIds w.dependsOn w.adjacency := by
  intro d _ n
  rw [adjacency, count_adjacency w.stages w.distinct d n]
  by_cases hn : n ∈ w.stageIds
  · rw [if_pos hn]
    rfl
  rw [if_neg hn]
  have hno : w.stages.find? (fun s => s.id = n) = none := by
    rw [find?_eq_none]
    intro s hs hsn
    exact hn (of_decide_eq_true hsn ▸ mem_map_of_mem hs)
  rw [hno]
  rfl

theorem openDeps_nil (n : Int) : openDeps w.dependsOn [] n = (w.dependsOn n).length := by
  simp [openDeps]

theorem kahnInv_kahnStart : KahnInv w.stageIds w.dependsOn w.kahnStart where
  nodup := by
    have hsub : ((w.stages.filter (fun s => s.dependsOn.length = 0)).map
        (·.id)).Sublist w.stageIds := filter_sublist.map _
    simpa [kahnStart] using hsub.nodup w.distinct
  mem_nodes := by
    intro n hn
    obtain ⟨s, hs, rfl⟩ := mem_map.mp hn
    exact mem_map_of_mem (mem_filter.mp hs).1
  degree := by
    intro n _
    rw [kahnStart, w.openDeps_nil]
  zero := by
    intro n hn
    obtain ⟨s, hs, rfl⟩ := mem_map.mp hn
    rw [kahnStart, w.openDeps_nil, w.dependsOn_of_mem hs]
    constructor
    · intro h
      obtain ⟨_, hs', hid⟩ := mem_map.mp h
      obtain ⟨hmem, hdeg⟩ := mem_filter.mp hs'
      rw [← inj_on_of_nodup_map w.distinct hmem hs hid]
      exact of_decide_eq_true hdeg
    · intro h
      exact mem_map_of_mem (mem_filter.mpr ⟨hs, by simpa using h⟩)
  deps_before := by
    intro _ x _ h
    simp [kahnStart] at h

/-- The `while queue` loop ends within one pop per stage. -/
theorem kahnLoop_ends : (kahnLoop w.adjacency w.stages.length w.kahnStart).queue = [] := by
  have h := w.kahnInv_kahnStart.queue_empty w.adjOf_adjacency
  rwa [stageIds, length_map] at h

theorem buildDagOrder_topological (h : w.buildDagOrder = .ok dag) :
    dag.Perm w.stageIds ∧ DepsBefore w.dependsOn dag := by
  have hinv := w.kahnInv_kahnStart.loop w.adjOf_adjacency w.stages.length
  rw [buildDagOrder] at h
  by_cases hlen : (kahnLoop w.adjacency w.stages.length w.kahnStart).order.length =
      w.stageIds.length
  · rw [if_neg (not_not.mpr hlen)] at h
    cases h
    exact hinv.topological hlen
  · rw [if_pos hlen] at h
    cases h

end WorkflowSchema

/-- A topological order of the schema's stages. -/
structure Topological (w : WorkflowSchema) (dagOrder : List Int) : Prop where
  perm : dagOrder.Perm w.stageIds
  deps : DepsBefore w.dependsOn dagOrder

namespace Topological

variable {w : WorkflowSchema}

theorem of_buildDagOrder (h : w.buildDagOrder = .ok dag) : Topological w dag :=
  ⟨(w.buildDagOrder_topological h).1, (w.buildDagOrder_topological h).2⟩

variable (h : Topological w dag)

include h

theorem nodup : dag.Nodup := h.perm.nodup_iff.mpr w.distinct

theorem exists_getStage (hi : i ∈ dag) : ∃ s, w.getStage i = some s :=
  w.exists_getStage (h.perm.mem_iff.mp hi)

/-- At position `idx` every dependency stands before it. -/
theorem dep_mem_take {idx : Nat} (hi : dag[idx]? = some i) (hs : w.getStage i = some s)
    {d : Int} (hd : d ∈ s.dependsOn) : d ∈ dag.take idx := by
  obtain ⟨_, hget⟩ := getElem?_eq_some_iff.mp hi
  have hsp : dag = dag.take idx ++ i :: dag.drop (idx + 1) := by
    rw [← hget, getElem_cons_drop, take_append_drop]
  exact h.deps _ _ _ hsp d (by rwa [w.dependsOn_getStage hs])

/-- A topological order leaves no dependency dangling. -/
theorem dep_mem_stageIds (hs : s ∈ w.stages)
    {d : Int} (hd : d ∈ s.dependsOn) : d ∈ w.stageIds := by
  have hmem : s.id ∈ dag := h.perm.mem_iff.mpr (mem_map_of_mem hs)
  obtain ⟨pre, post, hor⟩ := append_of_mem hmem
  have hpre : d ∈ pre := h.deps pre s.id post hor d (by rwa [w.dependsOn_of_mem hs])
  apply h.perm.mem_iff.mp
  rw [hor]
  exact mem_append_left _ hpre

theorem acyclic (i : Int) : ¬ Relation.TransGen (Depends w.dependsOn) i i := by
  by_cases hi : i ∈ w.stageIds
  · exact h.deps.acyclic h.nodup (h.perm.mem_iff.mpr hi)
  -- an id without a stage depends on nothing
  intro hcy
  obtain ⟨d, hd, -⟩ := Relation.TransGen.head'_iff.mp hcy
  have hno : w.getStage i = none := by
    cases hfo : w.getStage i with
    | none => rfl
    | some s =>
      obtain ⟨hs, rfl⟩ := w.getStage_some hfo
      exact absurd (mem_map_of_mem hs) hi
  simp [Depends, WorkflowSchema.dependsOn, hno] at hd

end Topological

namespace WorkflowSchema

variable (w : WorkflowSchema)

/-- With every dependency in the list and no cycle, the loop lists every stage. -/
theorem exists_buildDagOrder (hcl : ∀ s ∈ w.stages, ∀ d ∈ s.dependsOn, d ∈ w.stageIds)
    (hac : ∀ i, ¬ Relation.TransGen (Depends w.dependsOn) i i) :
    ∃ dag, w.buildDagOrder = .ok dag := by
  have hinv := w.kahnInv_kahnStart.loop w.adjOf_adjacency w.stages.length
  have hmem := hinv.complete w.kahnLoop_ends (by
      intro i hi d hd
      obtain ⟨s, hs, rfl⟩ := mem_map.mp hi
      rw [w.dependsOn_of_mem hs] at hd
      exact hcl s hs d hd)
    hac
  have hor : (kahnLoop w.adjacency w.stages.length w.kahnStart).order.Perm w.stageIds := by
    apply (perm_ext_iff_of_nodup (nodup_append.mp hinv.nodup).1 w.distinct).mpr
    intro i
    exact ⟨fun hi => hinv.mem_nodes i (mem_append_left _ hi), hmem i⟩
  refine ⟨(kahnLoop w.adjacency w.stages.length w.kahnStart).order, ?_⟩
  rw [buildDagOrder, if_neg (not_not.mpr hor.length_eq)]

/-- **Topological order.** The order exists exactly when every dependency names
a stage and no stage depends on itself through others; it then lists every stage
once, after all of its dependencies. -/
theorem buildDagOrder_correct : ((∃ dagOrder, w.buildDagOrder = .ok dagOrder) ↔
      (∀ s ∈ w.stages, ∀ d ∈ s.dependsOn, d ∈ w.stageIds) ∧
        ∀ i, ¬ Relation.TransGen (Depends w.dependsOn) i i) ∧
    ∀ dagOrder, w.buildDagOrder = .ok dagOrder →
      dagOrder.Perm w.stageIds ∧ DepsBefore w.dependsOn dagOrder := by
  refine ⟨⟨?_, ?_⟩, fun dagOrder h => w.buildDagOrder_topological h⟩
  · rintro ⟨_, h⟩
    have htop := Topological.of_buildDagOrder h
    exact ⟨fun s hs d hd => htop.dep_mem_stageIds hs hd, htop.acyclic⟩
  · rintro ⟨hcl, hac⟩
    exact w.exists_buildDagOrder hcl hac

/-- Four stages around a diamond, the last naming one dependency twice. -/
def diamond : WorkflowSchema where
  name := "diamond"
  stages := [
    { id := 1, name := "Setup", kind := .agent },
    { id := 4, name := "Merge", kind := .agent, dependsOn := [2, 3, 2] },
    { id := 3, name := "Branch B", kind := .agent, dependsOn := [1] },
    { id := 2, name := "Branch A", kind := .agent, dependsOn := [1] }]
  distinct := by decide

theorem diamond_correct : diamond.buildDagOrder = .ok [1, 3, 2, 4] ∧
    [1, 3, 2, 4].Perm diamond.stageIds ∧ DepsBefore diamond.dependsOn [1, 3, 2, 4] := by
  have hor : diamond.buildDagOrder = .ok [1, 3, 2, 4] := by decide +kernel
  exact ⟨hor, diamond.buildDagOrder_correct.2 _ hor⟩

end WorkflowSchema

end Orchestratord.Workflow
