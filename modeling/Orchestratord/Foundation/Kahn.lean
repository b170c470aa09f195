import Mathlib

/-!
# Kahn's algorithm

A work-list topological sort over an arbitrary node type. The state keeps the
remaining in-degree of every node, the queue of nodes whose in-degree reached
zero, and the order built so far. Neighbours may repeat: a node listed twice
as a dependency is counted twice and relaxed twice.

The invariant `KahnInv` says that the in-degree of a node is the number of its
dependency entries not yet in the order, and that order and queue together are
exactly the nodes of in-degree zero. From it `KahnInv.topological` reads off that
the order lists distinct nodes, each after all of its dependencies. The order
comes out complete exactly for the acyclic graphs whose dependencies are nodes:
`KahnInv.complete` and `DepsBefore.acyclic`.
-/

namespace Orchestratord.Foundation

open List Function

variable {α : Type} [DecidableEq α]

structure KahnState (α : Type) where
  inDegree : α → Int
  queue : List α
  order : List α

/-- Decrement one neighbour and enqueue it when its in-degree reaches zero. -/
def relax (st : KahnState α) (neighbor : α) : KahnState α :=
  let deg := st.inDegree neighbor - 1
  { st with
    inDegree := update st.inDegree neighbor deg
    queue := if deg = 0 then st.queue ++ [neighbor] else st.queue }

/-- Pop the head of the queue, append it to the order, relax its neighbours. -/
def visit (adj : α → List α) (st : KahnState α) (node : α) (rest : List α) : KahnState α :=
  (adj node).foldl relax { st with queue := rest, order := st.order ++ [node] }

/-- The work-list loop with a bound on the number of pops. -/
def kahnLoop (adj : α → List α) : Nat → KahnState α → KahnState α
  | 0, st => st
  | fuel + 1, st =>
    match st.queue with
    | [] => st
    | node :: rest => kahnLoop adj fuel (visit adj st node rest)

/-! ## One relaxation pass -/

variable (l : List α) (st : KahnState α)

theorem foldl_relax_order : (l.foldl relax st).order = st.order := by
  induction l generalizing st with
  | nil => rfl
  | cons a l ih => rw [foldl_cons, ih]; rfl

theorem foldl_relax_inDegree (n : α) :
    (l.foldl relax st).inDegree n = st.inDegree n - l.count n := by
  induction l generalizing st with
  | nil => simp
  | cons a l ih =>
    rw [foldl_cons, ih]
    by_cases h : a = n
    · subst h
      simp [relax]
      omega
    · simp [relax, update_of_ne (symm h), count_cons_of_ne h]

/-- A pass that relaxes no node below zero enqueues, once each, exactly the
nodes whose in-degree it exhausts. -/
theorem foldl_relax_queue (hle : ∀ n ∈ l, (l.count n : Int) ≤ st.inDegree n) :
    ∃ added : List α, (l.foldl relax st).queue = st.queue ++ added ∧
      added.Nodup ∧ ∀ n, n ∈ added ↔ n ∈ l ∧ st.inDegree n = l.count n := by
  induction l generalizing st with
  | nil => exact ⟨[], by simp⟩
  | cons a l ih =>
    have ha := hle a mem_cons_self
    rw [count_cons_self] at ha
    have hle' : ∀ n ∈ l, (l.count n : Int) ≤ (relax st a).inDegree n := by
      intro n hn
      have hn' := hle n (mem_cons_of_mem _ hn)
      by_cases h : a = n
      · subst h
        simp only [relax, update_self]
        omega
      · rw [count_cons_of_ne h] at hn'
        simpa [relax, update_of_ne (symm h)] using hn'
    obtain ⟨added, hq, hnd, hmem⟩ := ih (relax st a) hle'
    have hne : ∀ n, n ≠ a → (n ∈ added ↔ n ∈ a :: l ∧ st.inDegree n = (a :: l).count n) := by
      intro n hn
      rw [hmem n, count_cons_of_ne (symm hn)]
      simp [relax, hn]
    by_cases hz : st.inDegree a - 1 = 0
    · -- `a` is exhausted here, so it cannot occur again in the rest
      have hco : l.count a = 0 := by push_cast at ha; omega
      have hal : a ∉ l := count_eq_zero.mp hco
      have haa : a ∉ added := fun h => hal ((hmem a).mp h).1
      refine ⟨a :: added, ?_, nodup_cons.mpr ⟨haa, hnd⟩, ?_⟩
      · rw [foldl_cons, hq]
        simp [relax, hz]
      intro n
      by_cases hn : n = a
      · subst hn
        simp only [mem_cons_self, true_and, true_iff, count_cons_self]
        omega
      · rw [mem_cons, or_iff_right hn]
        exact hne n hn
    · refine ⟨added, ?_, hnd, ?_⟩
      · rw [foldl_cons, hq]
        simp [relax, hz]
      intro n
      by_cases hn : n = a
      · subst hn
        rw [hmem n]
        simp only [relax, update_self, mem_cons_self, true_and, count_cons_self]
        constructor
        · intro h; omega
        · intro h
          have hpos : 0 < l.count n := by omega
          exact ⟨count_pos_iff.mp hpos, by omega⟩
      · exact hne n hn

/-! ## The invariant -/

variable (deps : α → List α) (order : List α)

/-- `order` lists every node after all of its dependencies. -/
def DepsBefore : Prop := ∀ pre x post, order = pre ++ x :: post → ∀ d ∈ deps x, d ∈ pre

/-- Dependency entries of `n` that are not yet in the order. -/
def openDeps (n : α) : Nat := (deps n).countP (fun d => decide (d ∉ order))

structure KahnInv (nodes : List α) (deps : α → List α) (st : KahnState α) : Prop where
  nodup : (st.order ++ st.queue).Nodup
  mem_nodes : ∀ n ∈ st.order ++ st.queue, n ∈ nodes
  degree : ∀ n ∈ nodes, st.inDegree n = openDeps deps st.order n
  zero : ∀ n ∈ nodes, n ∈ st.order ++ st.queue ↔ openDeps deps st.order n = 0
  deps_before : DepsBefore deps st.order

variable {n node : α} {adj deps : α → List α} {st : KahnState α} {nodes order : List α}

theorem openDeps_eq_zero : openDeps deps order n = 0 ↔ ∀ d ∈ deps n, d ∈ order := by
  simp [openDeps]

theorem openDeps_snoc (hno : node ∉ order) (n : α) :
    openDeps deps order n = openDeps deps (order ++ [node]) n + (deps n).count node := by
  unfold openDeps
  induction deps n with
  | nil => rfl
  | cons d ds ih =>
    rw [countP_cons, count_cons, ih]
    by_cases hd : d = node
    · subst hd
      simp [hno]
      omega
    · by_cases hmem : d ∈ order
      · simp [hmem, hd]
      · simp [hmem, hd]
        omega

omit [DecidableEq α] in
theorem depsBefore_snoc (h : DepsBefore deps order) (hno : ∀ d ∈ deps node, d ∈ order) :
    DepsBefore deps (order ++ [node]) := by
  intro pre x post heq d hd
  rcases eq_nil_or_concat post with rfl | ⟨post', z, rfl⟩
  · obtain ⟨hpre, hx⟩ := append_inj' heq rfl
    cases hx
    subst hpre
    exact hno d hd
  · have heq' : order ++ [node] = (pre ++ x :: post') ++ [z] := by
      simpa using heq
    obtain ⟨hor, -⟩ := append_inj' heq' rfl
    exact h pre x post' hor d hd

/-- The adjacency list repeats a neighbour once per dependency entry. -/
def AdjOf (nodes : List α) (deps adj : α → List α) : Prop :=
  ∀ d ∈ nodes, ∀ n, (adj d).count n = if n ∈ nodes then (deps n).count d else 0

theorem KahnInv.visit (hadj : AdjOf nodes deps adj) {rest : List α} (h : KahnInv nodes deps st)
    (hq : st.queue = node :: rest) : KahnInv nodes deps (visit adj st node rest) := by
  have hnd : (st.order ++ node :: rest).Nodup := hq ▸ h.nodup
  have hne : node ∉ st.order := fun hm =>
    (nodup_append.mp hnd).2.2 node hm node mem_cons_self rfl
  have hns : node ∈ nodes := h.mem_nodes node (by simp [hq])
  have hde : ∀ d ∈ deps node, d ∈ st.order :=
    openDeps_eq_zero.mp ((h.zero node hns).mp (by simp [hq]))
  set start : KahnState α :=
    { st with queue := rest, order := st.order ++ [node] } with hsta
  have hop : ∀ n, openDeps deps st.order n =
      openDeps deps (st.order ++ [node]) n + (deps n).count node :=
    openDeps_snoc hne
  have hme : ∀ n, n ∈ adj node → n ∈ nodes := by
    intro n hn
    by_contra hno
    have := count_pos_iff.mpr hn
    rw [hadj node hns n, if_neg hno] at this
    exact Nat.lt_irrefl _ this
  have hle : ∀ n ∈ adj node, ((adj node).count n : Int) ≤ start.inDegree n := by
    intro n hn
    show _ ≤ st.inDegree n
    rw [h.degree n (hme n hn), hadj node hns n, if_pos (hme n hn), hop n]
    omega
  obtain ⟨added, hqu, haddN, had⟩ := foldl_relax_queue (adj node) start hle
  have hor : (Foundation.visit adj st node rest).order = st.order ++ [node] := foldl_relax_order _ _
  have hqu' : (Foundation.visit adj st node rest).queue = rest ++ added := hqu
  -- a node is added exactly when the popped node held its last open entries
  have hadd : ∀ n ∈ nodes, n ∈ added ↔
      openDeps deps (st.order ++ [node]) n = 0 ∧ openDeps deps st.order n ≠ 0 := by
    intro n hn
    have hdeg : start.inDegree n = openDeps deps st.order n := h.degree n hn
    have hco : (adj node).count n = (deps n).count node := by
      rw [hadj node hns n, if_pos hn]
    rw [had n, hdeg, ← count_pos_iff, hco, hop n]
    omega
  have hmm : ∀ n ∈ added, n ∈ nodes := fun n hn =>
    hme n ((had n).mp hn).1
  refine ⟨?_, ?_, ?_, ?_, ?_⟩
  · rw [hor, hqu']
    have hold : (st.order ++ [node] ++ rest).Nodup := by simpa using hnd
    rw [← append_assoc]
    refine nodup_append.mpr ⟨hold, haddN, ?_⟩
    intro a ha b hb hab
    subst hab
    have hze := (h.zero a (hmm a hb)).mp (by rw [hq]; simpa using ha)
    exact ((hadd a (hmm a hb)).mp hb).2 hze
  · rw [hor, hqu']
    intro n hn
    rw [← append_assoc, mem_append] at hn
    rcases hn with hn | hn
    · exact h.mem_nodes n (by rw [hq]; simpa using hn)
    · exact hmm n hn
  · intro n hn
    rw [hor]
    have hst : (Foundation.visit adj st node rest).inDegree n =
        st.inDegree n - (adj node).count n := foldl_relax_inDegree _ _ n
    rw [hst, h.degree n hn, hadj node hns n, if_pos hn, hop n]
    omega
  · intro n hn
    rw [hor, hqu', ← append_assoc, mem_append, hadd n hn]
    have hz := h.zero n hn
    rw [hq] at hz
    have hmem : n ∈ st.order ++ [node] ++ rest ↔ openDeps deps st.order n = 0 := by rw [← hz]; simp
    rw [hmem, hop n]
    omega
  · rw [hor]
    exact depsBefore_snoc h.deps_before hde

/-! ## Runs of the loop -/

theorem KahnInv.loop (hadj : AdjOf nodes deps adj) (fuel : Nat) (h : KahnInv nodes deps st) :
    KahnInv nodes deps (kahnLoop adj fuel st) := by
  induction fuel generalizing st with
  | zero => exact h
  | succ fuel ih =>
    rw [kahnLoop]
    split
    · exact h
    · rename_i node rest hq
      exact ih (h.visit hadj hq)

theorem kahnLoop_queue_or_length (adj : α → List α) (fuel : Nat) (st : KahnState α) :
    (kahnLoop adj fuel st).queue = [] ∨
      (kahnLoop adj fuel st).order.length = st.order.length + fuel := by
  induction fuel generalizing st with
  | zero => exact .inr rfl
  | succ fuel ih =>
    rw [kahnLoop]
    split
    · rename_i hq
      exact .inl hq
    rename_i node rest hq
    rcases ih (visit adj st node rest) with h | h
    · exact .inl h
    right
    rw [h, visit, foldl_relax_order]
    simp
    omega

/-- As many pops as there are nodes empty the queue: the loop of the algorithm
ends by itself. -/
theorem KahnInv.queue_empty (hadj : AdjOf nodes deps adj) (h : KahnInv nodes deps st) :
    (kahnLoop adj nodes.length st).queue = [] := by
  rcases kahnLoop_queue_or_length adj nodes.length st with hq | hlen
  · exact hq
  have hinv := h.loop hadj nodes.length
  have hle := (hinv.nodup.subperm hinv.mem_nodes).length_le
  rw [length_append] at hle
  exact eq_nil_of_length_eq_zero (by omega)

/-- A full-length order is a topological order of the nodes. -/
theorem KahnInv.topological (h : KahnInv nodes deps st) (hlen : st.order.length = nodes.length) :
    st.order.Perm nodes ∧ DepsBefore deps st.order := by
  refine ⟨?_, h.deps_before⟩
  have hsub : st.order.Subperm nodes :=
    (nodup_append.mp h.nodup).1.subperm (fun n hn => h.mem_nodes n (mem_append_left _ hn))
  exact hsub.perm_of_length_le (le_of_eq hlen.symm)

/-! ## Acyclic graphs -/

/-- `n` has `d` among its dependencies. -/
def Depends (deps : α → List α) (n d : α) : Prop := d ∈ deps n

/-- In an acyclic graph every node comes out once the queue is empty. -/
theorem KahnInv.complete (h : KahnInv nodes deps st) (hqu : st.queue = [])
    (hcl : ∀ n ∈ nodes, ∀ d ∈ deps n, d ∈ nodes)
    (hac : ∀ n, ¬ Relation.TransGen (Depends deps) n n) : ∀ n ∈ nodes, n ∈ st.order := by
  let below (x y : {n // n ∈ nodes}) : Prop := Relation.TransGen (Depends deps) y.1 x.1
  have : Std.Irrefl below := ⟨fun x => hac x.1⟩
  -- the dependencies of a node come out before it, so the induction follows them
  have hall : ∀ x : {n // n ∈ nodes}, x.1 ∈ st.order := by
    intro x
    induction x using (Finite.wellFounded_of_trans_of_irrefl below).induction with
    | _ x ih =>
      have hde : ∀ d ∈ deps x.1, d ∈ st.order := fun d hd =>
        ih ⟨d, hcl x.1 x.2 d hd⟩ (.single hd)
      have hmem := (h.zero x.1 x.2).mpr (openDeps_eq_zero.mpr hde)
      rwa [hqu, append_nil] at hmem
  exact fun n hn => hall ⟨n, hn⟩

omit [DecidableEq α] in
/-- What a listed node depends on, through any number of steps, stands before it. -/
theorem DepsBefore.mem_of_transGen (h : DepsBefore deps order) {pre post : List α} {d : α}
    (hor : order = pre ++ n :: post) (hdep : Relation.TransGen (Depends deps) n d) : d ∈ pre := by
  induction hdep with
  | single hd => exact h pre n post hor _ hd
  | tail _ hd ih =>
    obtain ⟨a, b, rfl⟩ := append_of_mem ih
    have hmem := h a _ (b ++ n :: post) (by simpa using hor) _ hd
    exact mem_append_left _ hmem

omit [DecidableEq α] in
theorem DepsBefore.acyclic (h : DepsBefore deps order) (hno : order.Nodup) (hn : n ∈ order) :
    ¬ Relation.TransGen (Depends deps) n n := by
  intro hcy
  obtain ⟨pre, post, hor⟩ := append_of_mem hn
  have hpre := h.mem_of_transGen hor hcy
  rw [hor] at hno
  exact (nodup_append.mp hno).2.2 n hpre n mem_cons_self rfl

end Orchestratord.Foundation
