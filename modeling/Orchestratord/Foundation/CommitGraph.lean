import Mathlib

/-! # Commit graphs

A store of commits that only grows, as a version control system keeps it. A commit is a number;
its parents are smaller. A copy of a commit, as a rebase makes it, has another number and the
same change. -/

namespace Orchestratord.Foundation

open List Relation.ReflTransGen

structure CommitNode where
  parents : List Nat
  change : Nat
  deriving DecidableEq, Repr

structure CommitGraph where
  nodes : List CommitNode
  older : ∀ (n : Nat) (node : CommitNode), nodes[n]? = some node → ∀ p ∈ node.parents, p < n

namespace CommitGraph

variable {g g' g'' : CommitGraph} {a b c n p tip upstream : Nat}

def size (g : CommitGraph) : Nat := g.nodes.length

def parents (g : CommitGraph) (n : Nat) : List Nat := (g.nodes[n]?.map (·.parents)).getD []

def change (g : CommitGraph) (n : Nat) : Nat := (g.nodes[n]?.map (·.change)).getD n

theorem parents_lt (h : p ∈ g.parents n) : p < n := by
  unfold parents at h
  cases hno : g.nodes[n]? with
  | none =>
    rw [hno] at h
    cases h
  | some node =>
    rw [hno] at h
    exact g.older n node hno p h

theorem lt_size_of_parents (h : p ∈ g.parents n) : n < g.size := by
  unfold parents at h
  by_contra hout
  rw [getElem?_eq_none (not_lt.mp hout)] at h
  cases h

/-- The graph of one commit without parents. -/
def root : CommitGraph where
  nodes := [{ parents := [], change := 0 }]
  older := by
    intro n node hnode p hp
    cases n with
    | zero =>
      cases hnode
      cases hp
    | succ n => simp at hnode

/-- A new commit, the number of which is the size so far. It is a copy or has a change of its
own; parents that do not exist are left out. -/
def commit (g : CommitGraph) (parents : List Nat) (copyOf : Option Nat) : CommitGraph where
  nodes := g.nodes ++ [{
    parents := parents.filter (· < g.size)
    change := (copyOf.map g.change).getD g.size }]
  older := by
    intro n node hnode p hp
    rcases lt_or_ge n g.nodes.length with hold | hnew
    · rw [List.getElem?_append_left hold] at hnode
      exact g.older n node hnode p hp
    rw [List.getElem?_append_right hnew] at hnode
    have hlast : n - g.nodes.length = 0 := by
      have hbound := (List.getElem?_eq_some_iff.mp hnode).1
      simp only [List.length_cons, List.length_nil] at hbound
      omega
    rw [hlast] at hnode
    cases hnode
    have hless : p < g.size := by simpa using (List.mem_filter.mp hp).2
    exact lt_of_lt_of_le hless hnew

theorem parents_commit (parents : List Nat) (copyOf : Option Nat) :
    (g.commit parents copyOf).parents g.size = parents.filter (· < g.size) := by
  simp [CommitGraph.parents, commit, size]

theorem change_commit_copy (parents : List Nat) (n : Nat) :
    (g.commit parents (some n)).change g.size = g.change n := by
  simp [change, commit, size]

/-! ## Histories -/

/-- `c` is the tip or an ancestor of it. -/
def Contains (g : CommitGraph) : Nat → Nat → Prop :=
  Relation.ReflTransGen fun a b => b ∈ g.parents a

theorem Contains.refl (g : CommitGraph) (n : Nat) : g.Contains n n := Relation.ReflTransGen.refl

theorem Contains.trans (h : g.Contains a b) (h' : g.Contains b c) : g.Contains a c :=
  Relation.ReflTransGen.trans h h'

theorem Contains.of_parent (h : p ∈ g.parents n) : g.Contains n p := single h

theorem Contains.le (h : g.Contains a b) : b ≤ a := by
  induction h with
  | refl => exact le_rfl
  | tail _ hst ih => exact (parents_lt hst).le.trans ih

theorem Contains.antisymm (h : g.Contains a b) (h' : g.Contains b a) : a = b :=
  le_antisymm h'.le h.le

def historyFrom (g : CommitGraph) : Nat → Nat → List Nat
  | 0, _ => []
  | fuel + 1, n => n :: (g.parents n).flatMap (historyFrom g fuel)

/-- The commits that a tip contains. -/
def history (g : CommitGraph) (tip : Nat) : List Nat := g.historyFrom (tip + 1) tip

theorem mem_historyFrom {fuel : Nat} (hfu : n < fuel) :
    c ∈ g.historyFrom fuel n ↔ g.Contains n c := by
  induction fuel generalizing n with
  | zero => exact absurd hfu (Nat.not_lt_zero n)
  | succ fuel ih =>
    have hpa : ∀ p ∈ g.parents n, (c ∈ g.historyFrom fuel p ↔ g.Contains p c) :=
      fun p hp => ih (lt_of_lt_of_le (parents_lt hp) (Nat.lt_succ_iff.mp hfu))
    rw [historyFrom, mem_cons, mem_flatMap]
    constructor
    · rintro (rfl | ⟨p, hp, hc⟩)
      · exact .refl g c
      · exact .head hp ((hpa p hp).mp hc)
    · intro h
      rcases cases_head h with rfl | ⟨p, hp, hc⟩
      · exact .inl rfl
      · exact .inr ⟨p, hp, (hpa p hp).mpr hc⟩

theorem mem_history : c ∈ g.history tip ↔ g.Contains tip c := mem_historyFrom (Nat.lt_succ_self tip)

instance (g : CommitGraph) (tip c : Nat) : Decidable (g.Contains tip c) :=
  decidable_of_iff (c ∈ g.history tip) mem_history

/-- The tip has the commit, itself or as a copy. -/
def Carries (g : CommitGraph) (tip c : Nat) : Prop :=
  ∃ d, g.Contains tip d ∧ g.change d = g.change c

theorem carries_iff : g.Carries tip c ↔ ∃ d ∈ g.history tip, g.change d = g.change c := by
  simp only [Carries, mem_history]

instance (g : CommitGraph) (tip c : Nat) : Decidable (g.Carries tip c) :=
  decidable_of_iff _ carries_iff.symm

theorem Contains.carries (h : g.Contains tip c) : g.Carries tip c := ⟨c, h, rfl⟩

theorem Carries.of_contains (h : g.Carries b c) (hab : g.Contains a b) : g.Carries a c := by
  obtain ⟨d, hd, hch⟩ := h
  exact ⟨d, hab.trans hd, hch⟩

/-! ## Graphs that have grown -/

/-- Commits were added at most. -/
def Extends (g g' : CommitGraph) : Prop := g.nodes <+: g'.nodes

namespace Extends

theorem refl (g : CommitGraph) : Extends g g := prefix_rfl

variable (h : Extends g g')

include h

theorem trans (h' : Extends g' g'') : Extends g g'' := List.IsPrefix.trans h h'

omit h in
theorem commit (g : CommitGraph) (parents : List Nat) (copyOf : Option Nat) :
    Extends g (g.commit parents copyOf) := prefix_append _ _

theorem size_le : g.size ≤ g'.size := h.length_le

theorem getElem? (hn : n < g.size) : g'.nodes[n]? = g.nodes[n]? := by
  obtain ⟨later, hla⟩ := h
  rw [← hla, getElem?_append_left hn]

theorem parents (hn : n < g.size) : g'.parents n = g.parents n := by
  rw [CommitGraph.parents, h.getElem? hn, CommitGraph.parents]

theorem change (hn : n < g.size) : g'.change n = g.change n := by
  rw [CommitGraph.change, h.getElem? hn, CommitGraph.change]

theorem contains (hab : g.Contains a b) : g'.Contains a b := by
  induction hab with
  | refl => exact .refl g' a
  | tail _ hst ih =>
    refine ih.trans (.of_parent ?_)
    rwa [h.parents (lt_size_of_parents hst)]

/-- What is added later is not contained in what was there. -/
theorem contains_iff (ha : a < g.size) : g'.Contains a b ↔ g.Contains a b := by
  refine ⟨fun hab => ?_, h.contains⟩
  induction hab with
  | refl => exact .refl g a
  | tail hab hst ih =>
    have hb := lt_of_le_of_lt ih.le ha
    rw [h.parents hb] at hst
    exact ih.trans (.of_parent hst)

theorem carries (ha : a < g.size) (hc : c < g.size) (hac : g.Carries a c) : g'.Carries a c := by
  obtain ⟨d, hd, hch⟩ := hac
  refine ⟨d, h.contains hd, ?_⟩
  rw [h.change (lt_of_le_of_lt hd.le ha), h.change hc, hch]

end Extends

/-! ## Rebasing -/

/-- Merges are not replayed. -/
def Ordinary (g : CommitGraph) (n : Nat) : Prop := (g.parents n).length ≤ 1

instance (g : CommitGraph) (n : Nat) : Decidable (g.Ordinary n) :=
  inferInstanceAs (Decidable (_ ≤ _))

/-- One commit on top of the head; it is kept as it is if it stands there already. -/
def pick (state : CommitGraph × Nat) (n : Nat) : CommitGraph × Nat :=
  if state.1.parents n = [state.2] then (state.1, n)
  else (state.1.commit [state.2] (some n), state.1.size)

/-- The commits of the branch to be replayed, the oldest first: those that the upstream has not,
neither as they are nor by a copy of its own. -/
def replayed (g : CommitGraph) (tip upstream : Nat) : List Nat :=
  (range (tip + 1)).filter fun n =>
    g.Contains tip n ∧ ¬ g.Contains upstream n ∧ g.Ordinary n ∧
      ∀ d ∈ g.history upstream, ¬ g.Contains tip d → g.change d ≠ g.change n

def rebase (g : CommitGraph) (tip upstream : Nat) : CommitGraph × Nat :=
  (g.replayed tip upstream).foldl pick (g, upstream)

/-- What a rebase keeps of a commit: the upstream has it, or the branch has it and not only by a
merge. -/
def Survives (g : CommitGraph) (tip upstream c : Nat) : Prop :=
  ∃ d, (g.Contains upstream d ∨ g.Contains tip d ∧ g.Ordinary d) ∧ g.change d = g.change c

theorem survives_iff : g.Survives tip upstream c ↔
    (∃ d ∈ g.history upstream, g.change d = g.change c) ∨
      ∃ d ∈ g.history tip, g.Ordinary d ∧ g.change d = g.change c := by
  simp only [Survives, mem_history, or_and_right, exists_or, and_assoc]

instance (g : CommitGraph) (tip upstream c : Nat) : Decidable (g.Survives tip upstream c) :=
  decidable_of_iff _ survives_iff.symm

/-- The head has moved on, with everything it had. -/
structure Advances (state state' : CommitGraph × Nat) : Prop where
  extends' : Extends state.1 state'.1
  bound : state'.2 < state'.1.size
  contains : state'.1.Contains state'.2 state.2

theorem Advances.trans {s s' s'' : CommitGraph × Nat} (h : Advances s s') (h' : Advances s' s'') :
    Advances s s'' where
  extends' := h.extends'.trans h'.extends'
  bound := h'.bound
  contains := h'.contains.trans (h'.extends'.contains h.contains)

variable {state : CommitGraph × Nat}

theorem pick_parents (hhe : state.2 < state.1.size) (n : Nat) :
    (pick state n).1.parents (pick state n).2 = [state.2] := by
  unfold pick
  split
  case isTrue hpa => exact hpa
  · rw [parents_commit, filter_cons_of_pos (by simpa using hhe), filter_nil]

theorem pick_change (n : Nat) : (pick state n).1.change (pick state n).2 = state.1.change n := by
  unfold pick
  split
  · rfl
  · exact change_commit_copy _ n

theorem pick_advances (hhe : state.2 < state.1.size) (n : Nat) : Advances state (pick state n) := by
  have hpa : state.2 ∈ (pick state n).1.parents (pick state n).2 := by
    rw [pick_parents hhe]
    exact mem_cons_self
  refine ⟨?_, lt_size_of_parents hpa, .of_parent hpa⟩
  unfold pick
  split
  · exact .refl _
  · exact .commit _ _ _

/-- The head after some picks has the changes of the commits picked and of the head before. -/
theorem foldl_pick (hhe : state.2 < state.1.size) {ns : List Nat}
    (hns : ∀ n ∈ ns, n < state.1.size) : Advances state (ns.foldl pick state) ∧ ∀ change,
      (∃ d, (ns.foldl pick state).1.Contains (ns.foldl pick state).2 d ∧
        (ns.foldl pick state).1.change d = change) ↔
      (∃ d, state.1.Contains state.2 d ∧ state.1.change d = change) ∨
        ∃ n ∈ ns, state.1.change n = change := by
  induction ns generalizing state with
  | nil => exact ⟨⟨.refl _, hhe, .refl _ _⟩, fun change => by simp⟩
  | cons n ns ih =>
    have hpi := pick_advances hhe n
    obtain ⟨hre, hcs⟩ := ih hpi.bound fun m hm =>
      lt_of_lt_of_le (hns m (mem_cons_of_mem n hm)) hpi.extends'.size_le
    rw [foldl_cons]
    refine ⟨hpi.trans hre, fun change => ?_⟩
    -- the new head is the commit picked, on top of the head before
    have hhi : (∃ d, (pick state n).1.Contains (pick state n).2 d ∧
        (pick state n).1.change d = change) ↔
        state.1.change n = change ∨
          ∃ d, state.1.Contains state.2 d ∧ state.1.change d = change := by
      constructor
      · rintro ⟨d, hd, hch⟩
        rcases cases_head hd with rfl | ⟨p, hp, hpd⟩
        · exact .inl ((pick_change n).symm.trans hch)
        rw [pick_parents hhe, mem_singleton] at hp
        subst hp
        have hold := (hpi.extends'.contains_iff hhe).mp hpd
        rw [hpi.extends'.change (lt_of_le_of_lt hold.le hhe)] at hch
        exact .inr ⟨d, hold, hch⟩
      · rintro (hch | ⟨d, hd, hch⟩)
        · exact ⟨(pick state n).2, .refl _ _, (pick_change n).trans hch⟩
        · refine ⟨d, hpi.contains.trans (hpi.extends'.contains hd), ?_⟩
          rwa [hpi.extends'.change (lt_of_le_of_lt hd.le hhe)]
    have hla : (∃ m ∈ ns, (pick state n).1.change m = change) ↔
        ∃ m ∈ ns, state.1.change m = change := by
      refine exists_congr fun m => and_congr_right fun hm => ?_
      rw [hpi.extends'.change (hns m (mem_cons_of_mem n hm))]
    rw [hcs, hhi, hla, or_assoc, or_left_comm]
    simp only [mem_cons, exists_eq_or_imp]

theorem mem_replayed : n ∈ g.replayed tip upstream ↔
    g.Contains tip n ∧ ¬ g.Contains upstream n ∧ g.Ordinary n ∧
      ∀ d, g.Contains upstream d → ¬ g.Contains tip d → g.change d ≠ g.change n := by
  unfold replayed
  rw [mem_filter, mem_range, decide_eq_true_eq]
  simp only [mem_history]
  exact ⟨fun h => h.2, fun h => ⟨Nat.lt_succ_of_le h.1.le, h⟩⟩

section

variable (htip : tip < g.size) (hupstream : upstream < g.size)

include htip hupstream

theorem rebase_picks : Advances (g, upstream) (g.rebase tip upstream) ∧ ∀ change,
    (∃ d, (g.rebase tip upstream).1.Contains (g.rebase tip upstream).2 d ∧
      (g.rebase tip upstream).1.change d = change) ↔
    (∃ d, g.Contains upstream d ∧ g.change d = change) ∨
      ∃ n ∈ g.replayed tip upstream, g.change n = change :=
  foldl_pick hupstream fun _ hn => lt_of_le_of_lt (mem_replayed.mp hn).1.le htip

/-- **What a rebase keeps**: all of the upstream, and of the branch all but the merges. -/
theorem rebase_carries_iff (hc : c < g.size) :
    (g.rebase tip upstream).1.Carries (g.rebase tip upstream).2 c ↔ g.Survives tip upstream c := by
  obtain ⟨had, hcs⟩ := rebase_picks htip hupstream
  rw [Carries, had.extends'.change hc, hcs]
  constructor
  · rintro (⟨d, hd, hch⟩ | ⟨n, hn, hch⟩)
    · exact ⟨d, .inl hd, hch⟩
    · obtain ⟨hti, -, hor, -⟩ := mem_replayed.mp hn
      exact ⟨n, .inr ⟨hti, hor⟩, hch⟩
  rintro ⟨d, hd, hch⟩
  by_cases hold : g.Contains upstream d
  · exact .inl ⟨d, hold, hch⟩
  obtain ⟨hbr, hor⟩ := hd.resolve_left hold
  -- a commit that the upstream has a copy of is not replayed
  by_cases hco : ∃ e, g.Contains upstream e ∧ ¬ g.Contains tip e ∧ g.change e = g.change d
  · obtain ⟨e, he, -, hsa⟩ := hco
    exact .inl ⟨e, he, hsa.trans hch⟩
  · refine .inr ⟨d, mem_replayed.mpr ⟨hbr, hold, hor, ?_⟩, hch⟩
    intro e he hnot hsa
    exact hco ⟨e, he, hnot, hsa⟩

end

end CommitGraph

end Orchestratord.Foundation
