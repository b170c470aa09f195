import Mathlib

/-! # Sweeps

Events are a time and a change. In the order of time, decreases first, the changes are added up;
the peak of the sums is the largest value that the sum has at a time. -/

namespace Orchestratord.Foundation

open List

variable {T : Type*} [LinearOrder T] {events : List (T × ℤ)} {m : ℤ}

/-- The sum after the events, and the peak so far. -/
def sweep (s : ℤ × ℤ) (events : List (T × ℤ)) : ℤ × ℤ :=
  events.foldl (fun s event => (s.1 + event.2, max s.2 (s.1 + event.2))) s

def sortEvents (events : List (T × ℤ)) : List (T × ℤ) :=
  events.mergeSort fun a b => toLex a ≤ toLex b

/-- The sum at a time: all events up to it count. -/
def level (events : List (T × ℤ)) (t : T) : ℤ := ((events.filter (·.1 ≤ t)).map Prod.snd).sum

theorem level_cons (event : T × ℤ) (rest : List (T × ℤ)) (t : T) : level (event :: rest) t =
    (if event.1 ≤ t then event.2 else 0) + level rest t := by
  by_cases ht : event.1 ≤ t
  all_goals simp [level, ht]

/-- Intervals without their ends: the level is the number that contain the time. -/
theorem level_intervals {α : Type*} {start stop : α → T} {l : List α}
    (h : ∀ i ∈ l, start i ≤ stop i) (t : T) :
    level (l.flatMap fun i => [(start i, 1), (stop i, -1)]) t =
      l.countP fun i => start i ≤ t ∧ t < stop i := by
  induction l with
  | nil => rfl
  | cons i rest ih =>
    obtain ⟨hi, hre⟩ := forall_mem_cons.mp h
    rw [flatMap_cons, cons_append, singleton_append, level_cons, level_cons, ih hre, countP_cons]
    by_cases hs : start i ≤ t
    · by_cases he : stop i ≤ t
      · simp [hs, he, not_lt.mpr he]
      · simp [hs, he, not_le.mp he, add_comm]
    · simpa [hs] using (not_le.mp hs).trans_le hi

theorem sweep_le_iff (h : events.Pairwise (toLex · ≤ toLex ·)) {s : ℤ × ℤ} (hs : s.1 ≤ s.2) :
    (sweep s events).2 ≤ m ↔ s.2 ≤ m ∧ ∀ t, s.1 + level events t ≤ m := by
  induction h generalizing s with
  | nil => simpa [sweep, level] using fun hp _ => hs.trans hp
  | @cons event rest hev _ ih =>
    rw [sweep, foldl_cons, ← sweep, ih (le_max_right _ _), max_le_iff]
    simp only [level_cons]
    -- before the event there is none
    have hlo (t : T) (ht : ¬ event.1 ≤ t) : level rest t = 0 := by
      rw [level, filter_eq_nil_iff.mpr]
      · rfl
      · intro y hy hle
        exact ht ((Prod.Lex.monotone_fst_ofLex (hev y hy)).trans (of_decide_eq_true hle))
    constructor
    · rintro ⟨⟨hp, -⟩, hre⟩
      refine ⟨hp, fun t => ?_⟩
      have hre := hre t
      split
      · omega
      · have hlo := hlo t ‹_›
        omega
    · rintro ⟨hp, hall⟩
      -- after an increase only increases follow at the same time
      have hup : 0 < event.2 → 0 ≤ level rest event.1 := by
        refine fun hpo => sum_nonneg fun x hx => ?_
        obtain ⟨y, hy, rfl⟩ := mem_map.mp hx
        obtain ⟨hy, ht⟩ := mem_filter.mp hy
        rcases Prod.Lex.toLex_le_toLex.mp (hev y hy) with hlt | ⟨-, hle⟩
        · exact absurd hlt (not_lt.mpr (of_decide_eq_true ht))
        · exact hpo.le.trans hle
      have hat := hall event.1
      rw [if_pos le_rfl] at hat
      have hse : s.1 + event.2 ≤ m := by omega
      refine ⟨⟨hp, hse⟩, fun t => ?_⟩
      have hall := hall t
      split at hall
      · omega
      · have hlo := hlo t ‹_›
        omega

theorem sortEvents_pairwise : (sortEvents events).Pairwise (toLex · ≤ toLex ·) := by
  refine (pairwise_mergeSort ?_ ?_ events).imp of_decide_eq_true
  · simpa using fun a b c d e f => le_trans
  · simpa using fun a b c d => le_total _ _

/-- The peak is the largest value that the sum has at a time, or at the start. -/
theorem peak_le_iff : (sweep (0, 0) (sortEvents events)).2 ≤ m ↔
    0 ≤ m ∧ ∀ t, level events t ≤ m := by
  have hlv (t : T) : level (sortEvents events) t = level events t :=
    (((mergeSort_perm events _).filter _).map _).sum_eq
  simp [sweep_le_iff sortEvents_pairwise, hlv]

end Orchestratord.Foundation
