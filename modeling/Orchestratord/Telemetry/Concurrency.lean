import Orchestratord.Foundation.Sweep

/-! # How many sessions run at once

The day's summary sweeps over the starts and ends of its sessions in the order of time. -/

namespace Orchestratord.Telemetry

open Foundation List

structure Concurrency where
  max : ℤ := 0
  avg : Option ℚ := none

/-- The variables of the sweep. -/
structure Sweep where
  running : ℤ := 0
  prevTs : ℚ
  integral : ℚ := 0
  max : ℤ := 0

def sweepPoint (s : Sweep) (p : ℚ × ℤ) : Sweep where
  running := s.running + p.2
  prevTs := p.1
  integral := s.integral + s.running * (p.1 - s.prevTs)
  max := max s.max (s.running + p.2)

variable (intervals : List (ℚ × ℚ))

/-- The sessions that have a length. -/
def nonEmpty : List (ℚ × ℚ) := intervals.filter fun i => i.2 > i.1

def sweepPoints : List (ℚ × ℤ) := (nonEmpty intervals).flatMap fun i => [(i.1, 1), (i.2, -1)]

def concurrency : Concurrency :=
  match sortEvents (sweepPoints intervals) with
  | [] => {}
  | first :: rest =>
    let s : Sweep := (first :: rest).foldl sweepPoint { prevTs := first.1 }
    let span := ((first :: rest).getLast (cons_ne_nil _ _)).1 - first.1
    { max := s.max, avg := some (if span > 0 then s.integral / span else s.max) }

/-! ## What the numbers say -/

/-- The sessions that run at a moment. -/
def runningAt (t : ℚ) : ℤ := (nonEmpty intervals).countP fun i => i.1 ≤ t ∧ t < i.2

/-- From the first start to the last end. -/
def coveredSpan : ℚ :=
  ((nonEmpty intervals).map (·.2)).max?.getD 0 - ((nonEmpty intervals).map (·.1)).min?.getD 0

/-- Without a session there is no average. -/
structure Concurrency.Correct (c : Concurrency) : Prop where
  max : IsGreatest (Set.range (runningAt intervals)) c.max
  avg : match c.avg with
    | some avg => avg * coveredSpan intervals = ((nonEmpty intervals).map fun i => i.2 - i.1).sum
    | none => nonEmpty intervals = []

variable {intervals}

/-- The maximum is the peak of the sweep. -/
theorem foldl_sweepPoint_max (points : List (ℚ × ℤ)) (s : Sweep) :
    (points.foldl sweepPoint s).max = (sweep (s.running, s.max) points).2 := by
  induction points generalizing s with
  | nil => rfl
  | cons p rest ih => exact ih (sweepPoint s p)

/-- The integral is what every point contributes until a moment, the last point. -/
theorem foldl_sweepPoint_integral (points : List (ℚ × ℤ)) (s : Sweep) :
    ∃ t : ℚ, (points.foldl sweepPoint s).integral =
      s.integral + s.running * (t - s.prevTs) + (points.map fun p => p.2 * (t - p.1)).sum := by
  induction points generalizing s with
  | nil => exact ⟨s.prevTs, by simp⟩
  | cons p rest ih =>
    obtain ⟨t, ht⟩ := ih (sweepPoint s p)
    refine ⟨t, ?_⟩
    rw [foldl_cons, ht, map_cons, sum_cons]
    simp only [sweepPoint, Int.cast_add]
    ring

/-- A session contributes its length, whatever the moment. -/
theorem sum_sortEvents (t : ℚ) :
    ((sortEvents (sweepPoints intervals)).map fun p => p.2 * (t - p.1)).sum =
      ((nonEmpty intervals).map fun i => i.2 - i.1).sum := by
  refine ((mergeSort_perm _ _).map _).sum_eq.trans ?_
  unfold sweepPoints
  induction nonEmpty intervals with
  | nil => rfl
  | cons i rest ih => simp [ih, ← add_assoc]

theorem mem_sortEvents {p : ℚ × ℤ} : p ∈ sortEvents (sweepPoints intervals) ↔
    ∃ i ∈ nonEmpty intervals, p = (i.1, 1) ∨ p = (i.2, -1) := by
  rw [sortEvents, (mergeSort_perm _ _).mem_iff]
  simp [sweepPoints]

/-- The sweep goes from the first start to the last end. -/
theorem coveredSpan_eq {first : ℚ × ℤ} {rest : List (ℚ × ℤ)}
    (h : sortEvents (sweepPoints intervals) = first :: rest) :
    0 < coveredSpan intervals ∧ coveredSpan intervals =
      ((first :: rest).getLast (cons_ne_nil _ _)).1 - first.1 := by
  have hso : (first :: rest).Pairwise fun a b : ℚ × ℤ => a.1 ≤ b.1 :=
    (h ▸ sortEvents_pairwise).imp fun hle => Prod.Lex.monotone_fst_ofLex hle
  have hlo : ∀ p ∈ first :: rest, first.1 ≤ p.1 :=
    forall_mem_cons.mpr ⟨le_rfl, fun _ => rel_of_pairwise_cons hso⟩
  have hla := dropLast_append_getLast (cons_ne_nil first rest)
  generalize (first :: rest).getLast (cons_ne_nil _ _) = last at hla ⊢
  have hhi : ∀ p ∈ first :: rest, p.1 ≤ last.1 := by
    rw [← hla] at hso ⊢
    exact forall_mem_append.mpr ⟨fun p hp => (pairwise_append.mp hso).2.2 p hp last (by simp),
      by simp⟩
  have hne : ∀ i ∈ nonEmpty intervals, first.1 ≤ i.1 ∧ i.1 < i.2 ∧ i.2 ≤ last.1 := fun i hi =>
    ⟨hlo _ (h ▸ mem_sortEvents.mpr ⟨i, hi, .inl rfl⟩), of_decide_eq_true (mem_filter.mp hi).2,
      hhi _ (h ▸ mem_sortEvents.mpr ⟨i, hi, .inr rfl⟩)⟩
  -- an end is not the first point, and a start not the last
  obtain ⟨i, hi, rfl | rfl⟩ := mem_sortEvents.mp (h ▸ mem_cons_self : first ∈ _)
  case inr => exact absurd (hne i hi).1 (not_le.mpr (hne i hi).2.1)
  obtain ⟨j, hj, rfl | rfl⟩ := mem_sortEvents.mp (h ▸ hla ▸ mem_concat_self : last ∈ _)
  · exact absurd (hne j hj).2.2 (not_le.mpr (hne j hj).2.1)
  have hstart : ((nonEmpty intervals).map (·.1)).min? = some i.1 :=
    min?_eq_some_iff.mpr ⟨mem_map_of_mem hi, forall_mem_map.mpr fun i hi => (hne i hi).1⟩
  have hend : ((nonEmpty intervals).map (·.2)).max? = some j.2 :=
    max?_eq_some_iff.mpr ⟨mem_map_of_mem hj, forall_mem_map.mpr fun i hi => (hne i hi).2.2⟩
  rw [coveredSpan, hstart, hend]
  exact ⟨sub_pos.mpr ((hne i hi).2.1.trans_le (hne i hi).2.2), rfl⟩

theorem concurrency_max_le_iff (m : ℤ) :
    (concurrency intervals).max ≤ m ↔ 0 ≤ m ∧ ∀ t, runningAt intervals t ≤ m := by
  have hmax : (concurrency intervals).max =
      (sweep (0, 0) (sortEvents (sweepPoints intervals))).2 := by
    unfold concurrency
    split
    case h_1 h => rw [h]; rfl
    case h_2 h => rw [h]; exact foldl_sweepPoint_max _ _
  have hlv : ∀ t, level (sweepPoints intervals) t = runningAt intervals t :=
    level_intervals fun i hi => (of_decide_eq_true (mem_filter.mp hi).2 : i.1 < i.2).le
  rw [hmax, peak_le_iff, forall_congr' fun t => by rw [hlv t]]

/-- **The maximum is the greatest number of sessions at a moment, and the average times the
covered span is the sum of the sessions' lengths.** -/
theorem concurrency_correct (intervals : List (ℚ × ℚ)) :
    (concurrency intervals).Correct intervals := by
  constructor
  · obtain ⟨-, hub⟩ := (concurrency_max_le_iff _).mp (le_refl (concurrency intervals).max)
    constructor
    · -- otherwise one less would be a bound
      by_contra hno
      have hlt : ∀ t, runningAt intervals t < (concurrency intervals).max := fun t =>
        lt_of_le_of_ne (hub t) fun heq => hno ⟨t, heq⟩
      have hpos : 0 ≤ runningAt intervals 0 := Int.natCast_nonneg _
      have hless := (concurrency_max_le_iff _).mpr
        ⟨Int.le_sub_one_of_lt (hpos.trans_lt (hlt 0)), fun t => Int.le_sub_one_of_lt (hlt t)⟩
      omega
    · rintro _ ⟨t, rfl⟩
      exact hub t
  · cases h : sortEvents (sweepPoints intervals) with
    | nil =>
      simp only [concurrency, h]
      refine eq_nil_iff_forall_not_mem.mpr fun i hi => not_mem_nil (a := (i.1, (1 : ℤ))) ?_
      exact h ▸ mem_sortEvents.mpr ⟨i, hi, .inl rfl⟩
    | cons first rest =>
      obtain ⟨hpos, hsp⟩ := coveredSpan_eq h
      simp only [concurrency, h]
      rw [← hsp, if_pos hpos, div_mul_cancel₀ _ hpos.ne']
      obtain ⟨t, hin⟩ := foldl_sweepPoint_integral (first :: rest) { prevTs := first.1 }
      rw [hin, ← h, sum_sortEvents, Int.cast_zero, zero_mul, add_zero, zero_add]

end Orchestratord.Telemetry
