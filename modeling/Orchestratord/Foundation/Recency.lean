import Mathlib

/-! # Recency lists

The items of a history without repetition, the one touched last at the front. The first `n` of
them are the `n` items touched most recently. -/

namespace Orchestratord.Foundation

open List

variable {α : Type*} [DecidableEq α] {a x : α} {l : List α} {n : ℕ}

/-- Move an item to the front. -/
def touch (a : α) (l : List α) : List α := a :: l.erase a

theorem nodup_touch (hl : l.Nodup) : (touch a l).Nodup :=
  nodup_cons.mpr ⟨fun h => ((List.Nodup.mem_erase_iff hl).mp h).1 rfl, hl.erase a⟩

/-- An item from further back takes the place of the last of the first `n + 1`. -/
theorem take_touch_of_notMem (ha : a ∉ l.take n) : (touch a l).take (n + 1) = a :: l.take n := by
  have hsp : l.erase a = l.take n ++ (l.drop n).erase a := by
    rw [← erase_append_right _ ha, take_append_drop]
  rw [touch, take_succ_cons, hsp]
  rcases Nat.le_total n l.length with hlo | hsh
  · rw [take_left' (length_take_of_le hlo)]
  · rw [drop_eq_nil_of_le hsh, erase_nil, append_nil, take_take, Nat.min_self]

/-- Touching one of the first `n` items only reorders them. -/
theorem perm_take_touch_of_mem (ha : a ∈ l.take n) : ((touch a l).take n).Perm (l.take n) := by
  rcases n with _ | n
  · cases ha
  have hsp : l.erase a = (l.take (n + 1)).erase a ++ l.drop (n + 1) := by
    rw [← erase_append_left _ ha, take_append_drop]
  have hle := length_erase_of_mem ha
  have hta : (l.erase a).take n = (l.take (n + 1)).erase a := by
    rw [hsp]
    rcases Nat.le_total (n + 1) l.length with hlo | hsh
    · rw [length_take_of_le hlo] at hle
      exact take_left' hle
    · rw [take_of_length_le hsh] at hle ⊢
      rw [drop_eq_nil_of_le hsh, append_nil]
      exact take_of_length_le (by omega)
  rw [touch, take_succ_cons, hta]
  exact (perm_cons_erase ha).symm

end Orchestratord.Foundation
