import Mathlib

/-! # Insertion-ordered dictionaries

A dictionary is a list of entries with distinct keys. Writing a key that is present keeps
its place, a new key goes to the end, so iteration has the order of first insertion. -/

namespace Orchestratord.Foundation

open List

structure Dict (κ ν : Type) where
  entries : List (κ × ν)
  nodup : (entries.map Prod.fst).Nodup
  deriving DecidableEq

namespace Dict

variable {κ ν : Type} [DecidableEq κ]

def empty : Dict κ ν := ⟨[], by simp⟩

/-- The value of the first entry with the key. -/
def lookup (k : κ) : List (κ × ν) → Option ν
  | [] => none
  | e :: rest => if e.1 = k then some e.2 else lookup k rest

variable (d : Dict κ ν) (k : κ)

def get : Option ν := lookup k d.entries

def size : Nat := d.entries.length

/-- Rewrite every value in place. -/
def mapValues (f : κ → ν → ν) : Dict κ ν where
  entries := d.entries.map fun e => (e.1, f e.1 e.2)
  nodup := by simpa [map_map, Function.comp_def] using d.nodup

/-- Rewrite the value of a key that is present; nothing happens otherwise. -/
def modify (f : ν → ν) : Dict κ ν := d.mapValues fun k' v => if k' = k then f v else v

def erase : Dict κ ν where
  entries := d.entries.filter fun e => e.1 ≠ k
  nodup := d.nodup.sublist (filter_sublist.map _)

theorem lookup_eq_none {k : κ} {entries : List (κ × ν)} :
    lookup k entries = none ↔ k ∉ entries.map Prod.fst := by
  induction entries with
  | nil => simp [lookup]
  | cons e _ ih =>
    by_cases he : e.1 = k
    · simp [lookup, he]
    · have hk : k ≠ e.1 := symm he
      simpa [lookup, he, hk] using ih

def set (k : κ) (v : ν) : Dict κ ν :=
  if h : d.get k = none then
    { entries := d.entries ++ [(k, v)]
      nodup := by
        have hk := lookup_eq_none.mp h
        simpa using List.Nodup.concat hk d.nodup }
  else d.modify k fun _ => v

/-! ## Reading after writing -/

variable (d : Dict κ ν) (k : κ) (f : ν → ν) (v : ν)

@[simp] theorem get_empty : (empty : Dict κ ν).get k = none := rfl

@[simp] theorem get_mapValues (f : κ → ν → ν) (k : κ) :
    (d.mapValues f).get k = (d.get k).map (f k) := by
  obtain ⟨entries, nodup⟩ := d
  simp only [get, mapValues]
  clear nodup
  induction entries with
  | nil => rfl
  | cons e _ ih =>
    by_cases he : e.1 = k
    · simp [lookup, he]
    · simpa [lookup, he] using ih

theorem get_modify (k' : κ) :
    (d.modify k f).get k' = if k' = k then (d.get k').map f else d.get k' := by
  by_cases h : k' = k
  all_goals simp [modify, h]

@[simp] theorem get_modify_self : (d.modify k f).get k = (d.get k).map f := by simp [get_modify]

@[simp] theorem get_modify_ne {k k' : κ} (h : k' ≠ k) :
    (d.modify k f).get k' = d.get k' := by simp [get_modify, h]

theorem get_of_mem {e : κ × ν} (h : e ∈ d.entries) : d.get e.1 = some e.2 := by
  obtain ⟨entries, nodup⟩ := d
  induction entries with
  | nil => cases h
  | cons first _ ih =>
    have hfr := (nodup_cons.mp nodup).1
    rcases mem_cons.mp h with rfl | hre
    · simp [get, lookup]
    · have hne : first.1 ≠ e.1 := fun heq => hfr (heq ▸ mem_map_of_mem hre)
      have hget := ih (nodup_cons.mp nodup).2 hre
      simpa [get, lookup, hne] using hget

/-- Writing back what is there changes nothing. -/
theorem modify_eq_self (h : ∀ v, d.get k = some v → f v = v) : d.modify k f = d := by
  have hen : (d.modify k f).entries = d.entries := by
    refine (map_congr_left fun e he => ?_).trans (map_id d.entries)
    by_cases hk : e.1 = k
    · have hsa : f e.2 = e.2 := h e.2 (hk ▸ d.get_of_mem he)
      simp [hsa]
    · simp [hk]
  obtain ⟨_, _⟩ := d
  simpa [modify, mapValues] using hen

private theorem lookup_append_new (entries : List (κ × ν)) (k k' : κ) (v : ν)
    (h : lookup k entries = none) :
    lookup k' (entries ++ [(k, v)]) = if k' = k then some v else lookup k' entries := by
  induction entries with
  | nil =>
    by_cases hk : k' = k
    · simp [lookup, hk]
    · simp [lookup, hk, Ne.symm hk]
  | cons e rest ih =>
    have he : e.1 ≠ k := by
      rintro rfl
      simp [lookup] at h
    have hre : lookup k rest = none := by simpa [lookup, he] using h
    by_cases hk' : e.1 = k'
    · have : k' ≠ k := hk' ▸ he
      simp [lookup, hk', this]
    · simpa [lookup, hk'] using ih hre

theorem get_set (k' : κ) : (d.set k v).get k' = if k' = k then some v else d.get k' := by
  unfold set
  split
  case isTrue h => exact lookup_append_new d.entries k k' v h
  rename_i h
  obtain ⟨_, hold⟩ := Option.ne_none_iff_exists'.mp h
  rw [get_modify]
  split
  case isTrue hk => simp [hk, hold]
  · rfl

@[simp] theorem get_set_self : (d.set k v).get k = some v := by
  simp [get_set]

@[simp] theorem get_set_ne {k k' : κ} (h : k' ≠ k) :
    (d.set k v).get k' = d.get k' := by simp [get_set, h]

theorem get_erase (k' : κ) : (d.erase k).get k' = if k' = k then none else d.get k' := by
  obtain ⟨entries, nodup⟩ := d
  simp only [get, erase]
  clear nodup
  induction entries with
  | nil => simp [lookup]
  | cons e _ ih =>
    by_cases he : e.1 = k
    · by_cases hk : k' = k
      · simpa [he, hk] using ih
      · simpa [lookup, he, Ne.symm hk] using ih
    · by_cases hk : k' = k
      · simpa [lookup, he, hk] using ih
      · by_cases he' : e.1 = k'
        · simp [lookup, he', hk]
        · simpa [lookup, he, he'] using ih

@[simp] theorem get_erase_self : (d.erase k).get k = none := by
  simp [get_erase]

@[simp] theorem get_erase_ne {k k' : κ} (h : k' ≠ k) :
    (d.erase k).get k' = d.get k' := by simp [get_erase, h]

theorem get_foldl_erase (keys : List κ) (k : κ) :
    (keys.foldl erase d).get k = if k ∈ keys then none else d.get k := by
  induction keys generalizing d with
  | nil => rfl
  | cons key rest ih =>
    rw [foldl_cons, ih]
    by_cases hkey : k = key <;> by_cases hre : k ∈ rest <;> simp [hkey]

/-- The entries whose key satisfies `p`. -/
def filterKeys (d : Dict κ ν) (p : κ → Bool) : Dict κ ν where
  entries := d.entries.filter fun e => p e.1
  nodup := d.nodup.sublist (filter_sublist.map _)

theorem get_filterKeys (p : κ → Bool) (k : κ) :
    (d.filterKeys p).get k = if p k then d.get k else none := by
  obtain ⟨entries, nodup⟩ := d
  simp only [get, filterKeys]
  clear nodup
  induction entries with
  | nil => simp [lookup]
  | cons e _ ih =>
    by_cases he : e.1 = k
    · subst he
      by_cases hp : p e.1
      · simp [lookup, hp]
      · simpa [hp] using ih
    · by_cases hp : p e.1
      all_goals simpa [lookup, he, hp] using ih

/-- Write every entry of another dictionary. -/
def update (d : Dict κ ν) (more : Dict κ ν) : Dict κ ν :=
  more.entries.foldl (fun d e => d.set e.1 e.2) d

theorem get_update (more : Dict κ ν) (k : κ) :
    (d.update more).get k = (more.get k).or (d.get k) := by
  obtain ⟨entries, nodup⟩ := more
  simp only [update, get]
  induction entries generalizing d with
  | nil => rfl
  | cons e _ ih =>
    rw [map_cons, nodup_cons] at nodup
    have hre := ih (d.set e.1 e.2) nodup.2
    have hset := d.get_set e.1 e.2 k
    simp only [get] at hset
    rw [foldl_cons, hre, hset]
    by_cases hk : e.1 = k
    · subst hk
      simp [lookup, lookup_eq_none.mpr nodup.1]
    · simp [lookup, hk, Ne.symm hk]

/-! ## Iterating -/

theorem mem_entries_iff : (k, v) ∈ d.entries ↔ d.get k = some v := by
  refine ⟨fun h => d.get_of_mem h, fun h => ?_⟩
  obtain ⟨entries, nodup⟩ := d
  simp only [get] at h ⊢
  clear nodup
  induction entries with
  | nil => cases h
  | cons e _ ih =>
    by_cases he : e.1 = k
    · subst he
      obtain rfl : e.2 = v := by simpa [lookup] using h
      exact mem_cons_self
    · exact mem_cons_of_mem e (ih (by simpa [lookup, he] using h))

/-! ## Sizes -/

theorem size_set_of_none {k : κ} (h : d.get k = none) : (d.set k v).size = d.size + 1 := by
  simp [set, h, size]

theorem size_set_of_isSome {k : κ} (h : (d.get k).isSome) : (d.set k v).size = d.size := by
  obtain ⟨_, hold⟩ := Option.isSome_iff_exists.mp h
  simp [set, hold, size, modify, mapValues]

theorem size_erase_le : (d.erase k).size ≤ d.size := length_filter_le _ _

/-- Iterating over the entries meets a key once: what a key contributes to a count over
the entries is what its value contributes. -/
theorem countP_entries {α : Type} (f : κ × ν → Option α) (key : α → κ)
    (hkey : ∀ e a, f e = some a → key a = e.1) (k : κ) :
    (d.entries.filterMap f).countP (fun a => key a = k) =
      ((d.get k).bind fun v => f (k, v)).toList.length := by
  obtain ⟨entries, nodup⟩ := d
  simp only [get]
  induction entries with
  | nil => rfl
  | cons e _ ih =>
    rw [map_cons, nodup_cons] at nodup
    obtain ⟨hnew, hre⟩ := nodup
    have ih := ih hre
    by_cases he : e.1 = k
    · subst he
      rw [lookup_eq_none.mpr hnew] at ih
      simp only [lookup]
      cases hf : f e with
      | none => simpa [hf] using ih
      | some a => simpa [hf, hkey e a hf] using ih
    · simp only [lookup, he]
      cases hf : f e with
      | none => simpa [hf] using ih
      | some a => simpa [hf, hkey e a hf, he] using ih

end Dict

end Orchestratord.Foundation
