import Mathlib

/-! # The first items of a stable sort

Items carry their position in a list. Sorting by a key, largest first, leaves equal keys in
the order of their positions, so the first `n` of the sorted list are the items that fewer
than `n` others precede. -/

namespace Orchestratord.Foundation.Ranking

open List List.Pairwise

variable {α κ : Type*} [LinearOrder κ]

abbrev Item (α : Type*) := α × ℕ

variable (key : Item α → κ) (items : List (Item α))

/-- A stable sort, largest key first. -/
def sortDesc : List (Item α) := items.insertionSort fun a b => key b ≤ key a

/-- A stable sort by position. -/
def sortByPosition : List (Item α) := items.insertionSort fun a b => a.2 ≤ b.2

/-- The first item comes before the second in the sorted list. -/
def Precedes (a b : Item α) : Prop := key b < key a ∨ key b = key a ∧ a.2 < b.2

instance (a b : Item α) : Decidable (Precedes key a b) :=
  inferInstanceAs (Decidable (_ ∨ _))

/-- How many items precede this one. -/
def rank (x : Item α) : ℕ := items.countP fun a => Precedes key a x

/-- Positions increase along the list. -/
def Positioned : Prop := items.Pairwise fun a b => a.2 < b.2

variable {key : Item α → κ} {items : List (Item α)} {a b : Item α}

theorem Precedes.key_le (h : Precedes key a b) : key b ≤ key a := by
  rcases h with hlt | ⟨heq, -⟩
  · exact hlt.le
  · exact heq.le

theorem Precedes.asymm (h : Precedes key a b) : ¬ Precedes key b a := by
  rcases h with hlt | ⟨heq, hpos⟩
  · rintro (hlt' | ⟨heq', -⟩)
    · exact lt_asymm hlt hlt'
    · exact hlt.ne' heq'
  · rintro (hlt' | ⟨-, hpos'⟩)
    · exact hlt'.ne' heq
    · exact lt_asymm hpos hpos'

theorem precedes_irrefl (a : Item α) : ¬ Precedes key a a := fun h => h.asymm h

variable {sorted : List (Item α)}

/-- An item that stood before all others goes before those with an equal key. -/
theorem pairwise_orderedInsert
    (hso : sorted.Pairwise (Precedes key)) (hfi : ∀ b ∈ sorted, a.2 < b.2) :
    (sorted.orderedInsert (fun a b => key b ≤ key a) a).Pairwise (Precedes key) := by
  induction sorted with
  | nil => exact pairwise_singleton _ _
  | cons b rest ih =>
    obtain ⟨hb, hre⟩ := pairwise_cons.mp hso
    rw [orderedInsert_cons]
    split
    case isTrue hle =>
      refine pairwise_cons.mpr ⟨fun c hc => ?_, hso⟩
      have hkey : key c ≤ key a := by
        rcases mem_cons.mp hc with rfl | hmem
        · exact hle
        · exact (hb c hmem).key_le.trans hle
      rcases hkey.lt_or_eq with hlt | heq
      · exact .inl hlt
      · exact .inr ⟨heq, hfi c hc⟩
    case isFalse hle =>
      have ih := ih hre fun c hc => hfi c (mem_cons_of_mem b hc)
      refine pairwise_cons.mpr ⟨fun c hc => ?_, ih⟩
      rcases (mem_orderedInsert _).mp hc with rfl | hmem
      · exact .inl (not_le.mp hle)
      · exact hb c hmem

variable (hpos : Positioned items)

include hpos

theorem pairwise_sortDesc : (sortDesc key items).Pairwise (Precedes key) := by
  induction items with
  | nil => exact nil
  | cons a rest ih =>
    obtain ⟨hfi, hre⟩ := pairwise_cons.mp hpos
    refine pairwise_orderedInsert (ih hre) fun b hb => hfi b ?_
    exact (mem_insertionSort _).mp hb

omit hpos in
/-- In a list sorted by a strict order, an item stands where the number of those before it says. -/
theorem mem_take_iff_countP {R : Item α → Item α → Prop} [DecidableRel R]
    (has : ∀ a b, R a b → ¬ R b a) (hso : sorted.Pairwise R)
    (n : ℕ) (x : Item α) : x ∈ sorted.take n ↔ x ∈ sorted ∧ sorted.countP (fun a => R a x) < n := by
  induction sorted generalizing n with
  | nil => simp
  | cons a rest ih =>
    obtain ⟨ha, hre⟩ := pairwise_cons.mp hso
    rcases n with _ | n
    · simp
    rw [take_succ_cons, mem_cons, mem_cons, ih hre, countP_cons]
    by_cases hx : x = a
    · subst hx
      -- nothing precedes the head
      have hse : ¬ R x x := fun h => has x x h h
      have hno : rest.countP (fun b => R b x) = 0 := by
        refine countP_eq_zero.mpr fun b hb => ?_
        simpa using has x b (ha b hb)
      simp [hse, hno]
    · constructor
      · rintro (rfl | ⟨hmem, hco⟩)
        · exact absurd rfl hx
        · simp [ha x hmem, hmem, hco]
      · rintro ⟨rfl | hmem, hco⟩
        · exact absurd rfl hx
        · simp only [ha x hmem, decide_true, if_true] at hco
          exact .inr ⟨hmem, by omega⟩

theorem mem_take_sortDesc (n : ℕ) (x : Item α) :
    x ∈ (sortDesc key items).take n ↔ x ∈ items ∧ rank key items x < n := by
  have hpe : (sortDesc key items).Perm items := perm_insertionSort _ items
  rw [mem_take_iff_countP (fun _ _ => Precedes.asymm) (pairwise_sortDesc hpos), hpe.mem_iff,
    hpe.countP_eq]
  rfl

theorem nodup_of_positioned : items.Nodup := by
  refine imp ?_ hpos
  rintro a b hlt rfl
  exact lt_irrefl _ hlt

/-- Two items at one position are one item. -/
theorem Positioned.eq_of_position (ha : a ∈ items) (hb : b ∈ items) (h : a.2 = b.2) : a = b := by
  by_contra hne
  have hsy : Std.Symm fun a b : Item α => a.2 ≠ b.2 := ⟨fun _ _ => symm⟩
  have hdi : items.Pairwise fun a b => a.2 ≠ b.2 := hpos.imp fun hlt => hlt.ne
  exact hdi.forall ha hb hne h

/-- Sorting by position a part of a list brings back the order of the list. -/
theorem sortByPosition_eq_filter {part : List (Item α)} {p : Item α → Prop} [DecidablePred p]
    (hno : part.Nodup) (hmem : ∀ x, x ∈ part ↔ x ∈ items ∧ p x) :
    sortByPosition part = items.filter p := by
  have hfi : Positioned (items.filter p) := filter _ hpos
  have hpe : (sortByPosition part).Perm (items.filter p) := by
    refine (perm_insertionSort _ part).trans ?_
    refine (perm_ext_iff_of_nodup hno (nodup_of_positioned hfi)).mpr fun x => ?_
    rw [hmem, mem_filter, decide_eq_true_eq]
  have hso : (sortByPosition part).Pairwise fun a b => a.2 ≤ b.2 := pairwise_insertionSort _ part
  refine hpe.eq_of_pairwise ?_ hso (hfi.imp le_of_lt)
  intro a b ha hb hab hba
  have ha : a ∈ items.filter p := hpe.mem_iff.mp ha
  exact hfi.eq_of_position ha hb (le_antisymm hab hba)

/-- The first `n` of the sorted list, put back in order of position. -/
theorem sortByPosition_take_sortDesc (n : ℕ) :
    sortByPosition ((sortDesc key items).take n) = items.filter (rank key items · < n) := by
  refine sortByPosition_eq_filter hpos ?_ (mem_take_sortDesc hpos n)
  have hpe : (sortDesc key items).Perm items := perm_insertionSort _ items
  exact (hpe.nodup_iff.mpr (nodup_of_positioned hpos)).sublist (take_sublist _ _)

omit hpos

/-- Every rank is below the length. -/
theorem rank_lt_length {x : Item α} (hx : x ∈ items) : rank key items x < items.length := by
  refine lt_of_le_of_ne countP_le_length fun heq => ?_
  have hall := countP_eq_length.mp heq x hx
  exact precedes_irrefl x (of_decide_eq_true hall)

end Orchestratord.Foundation.Ranking
