import Mathlib

/-! # Spools

Messages are numbered as they are sent and wait under names until they are taken. The reader
works from a snapshot of the names, smallest first, and may pass over a message, which then
waits for a later snapshot. Every message has a key. The reader knows names only, so messages of
one key are taken as they were sent if their names are in that order and no message is passed
over while a later one of its key waits. -/

namespace Orchestratord.Foundation

open List

/-- Names `ν`, keys `κ`. -/
@[ext]
structure Spool (ν κ : Type*) where
  /-- The keys of the messages sent, by number. -/
  keys : List κ
  waiting : ν → Option ℕ
  /-- The names of the snapshot that the reader has yet to deal with. -/
  queue : List ν
  taken : List ℕ

namespace Spool

variable {ν κ : Type*} [LinearOrder ν] {s : Spool ν κ}

def Same (s : Spool ν κ) (m n : ℕ) : Prop := s.keys[m]? = s.keys[n]?

/-- `m` may be taken before `n`. -/
def Before (s : Spool ν κ) (m n : ℕ) : Prop := m ≠ n ∧ (s.Same m n → m < n)

/-! ## Operations -/

def place (s : Spool ν κ) (name : ν) (key : κ) : Spool ν κ :=
  { s with
    keys := s.keys ++ [key]
    waiting := Function.update s.waiting name (some s.keys.length) }

def snapshot (s : Spool ν κ) (names : List ν) : Spool ν κ := { s with queue := names }

def pass (s : Spool ν κ) : Spool ν κ := { s with queue := s.queue.tail }

def take (s : Spool ν κ) (name : ν) (n : ℕ) : Spool ν κ :=
  { s with
    waiting := Function.update s.waiting name none
    queue := s.queue.tail
    taken := s.taken ++ [n] }

/-! ## The order of a spool -/

structure InOrder (s : Spool ν κ) : Prop where
  sent : ∀ {name n}, s.waiting name = some n → n < s.keys.length
  single : ∀ {a b n}, s.waiting a = some n → s.waiting b = some n → a = b
  /-- The names of one key are in the order in which they were sent. -/
  named : ∀ {a b m n}, s.waiting a = some m → s.waiting b = some n → s.Same m n → m < n → a < b
  sorted : s.queue.Pairwise (· < ·)
  queued : ∀ name ∈ s.queue, ∃ n, s.waiting name = some n
  /-- What has to be taken before a message of the snapshot is in the snapshot. -/
  closed : ∀ b ∈ s.queue, ∀ {a m n}, s.waiting a = some m → s.waiting b = some n →
    s.Same m n → m < n → a ∈ s.queue
  known : ∀ m ∈ s.taken, m < s.keys.length
  past : ∀ m ∈ s.taken, ∀ {name n}, s.waiting name = some n → s.Before m n
  ordered : s.taken.Pairwise s.Before

variable {n m : ℕ} (name : ν)

theorem same_place (key : κ) (hm : m < s.keys.length)
    (hn : n < s.keys.length) : (s.place name key).Same m n ↔ s.Same m n := by
  simp only [Same, place, getElem?_append_left hm, getElem?_append_left hn]

theorem before_place (key : κ) (hm : m < s.keys.length)
    (hn : n < s.keys.length) : (s.place name key).Before m n ↔ s.Before m n := by
  simp only [Before, same_place name key hm hn]

variable {name : ν} {key : κ}

theorem waiting_place {a : ν} (h : (s.place name key).waiting a = some m) :
    a = name ∧ m = s.keys.length ∨ a ≠ name ∧ s.waiting a = some m := by
  by_cases ha : a = name
  · subst ha
    left
    simpa [place, eq_comm] using h
  · right
    simpa [place, ha] using h

namespace InOrder

theorem empty : InOrder (⟨[], fun _ => none, [], []⟩ : Spool ν κ) :=
  ⟨nofun, nofun, nofun, .nil, nofun, nofun, nofun, nofun, .nil⟩

theorem reset (h : InOrder s) : InOrder (s.snapshot []) :=
  { h with sorted := .nil, queued := nofun, closed := nofun }

/-- A snapshot has the names of all messages that wait. -/
theorem snapshot (h : InOrder s) {names : List ν} (hso : names.Pairwise (· < ·))
    (hna : ∀ name, name ∈ names ↔ ∃ n, s.waiting name = some n) :
    InOrder (s.snapshot names) :=
  { h with
    sorted := hso
    queued name hnm := (hna name).mp hnm
    closed _ _ a m _ ha _ _ _ := (hna a).mpr ⟨m, ha⟩ }

/-- A message is sent under a new name, which is greater than those of its key that wait. -/
theorem place (h : InOrder s) (hfr : s.waiting name = none)
    (hgr : ∀ a m, s.waiting a = some m → s.keys[m]? = some key → a < name) :
    InOrder (s.place name key) := by
  have hnew : (s.place name key).keys[s.keys.length]? = some key := by simp [Spool.place]
  have hqu : ∀ b ∈ s.queue, b ≠ name := by
    rintro b hb rfl
    obtain ⟨n, hn⟩ := h.queued b hb
    rw [hfr] at hn
    cases hn
  have hla {m : ℕ} (hm : m < s.keys.length)
      (hsa : (s.place name key).Same m s.keys.length) : s.keys[m]? = some key := by
    rwa [Same, hnew, Spool.place, getElem?_append_left hm] at hsa
  refine ⟨?_, ?_, ?_, h.sorted, ?_, ?_, ?_, ?_, ?_⟩
  · intro a m ha
    have hle : (s.place name key).keys.length = s.keys.length + 1 := by simp [Spool.place]
    rw [hle]
    rcases waiting_place ha with ⟨-, rfl⟩ | ⟨-, ha⟩
    · exact Nat.lt_succ_self _
    · exact Nat.lt_succ_of_lt (h.sent ha)
  · intro a b n ha hb
    rcases waiting_place ha with ⟨rfl, rfl⟩ | ⟨-, ha⟩
    · rcases waiting_place hb with ⟨rfl, -⟩ | ⟨-, hb⟩
      · rfl
      · exact absurd (h.sent hb) (lt_irrefl _)
    · rcases waiting_place hb with ⟨-, rfl⟩ | ⟨-, hb⟩
      · exact absurd (h.sent ha) (lt_irrefl _)
      · exact h.single ha hb
  · intro a b m n ha hb hsa hlt
    rcases waiting_place ha with ⟨rfl, rfl⟩ | ⟨-, ha⟩
    · -- no number is greater than the new one
      rcases waiting_place hb with ⟨-, rfl⟩ | ⟨-, hb⟩
      · exact absurd hlt (lt_irrefl _)
      · exact absurd (hlt.trans (h.sent hb)) (lt_irrefl _)
    · rcases waiting_place hb with ⟨hnm, rfl⟩ | ⟨-, hb⟩
      · rw [hnm]
        exact hgr a m ha (hla (h.sent ha) hsa)
      · exact h.named ha hb ((same_place name key (h.sent ha) (h.sent hb)).mp hsa) hlt
  · intro b hb
    obtain ⟨n, hn⟩ := h.queued b hb
    exact ⟨n, by simpa [Spool.place, hqu b hb] using hn⟩
  · intro b hb a m n ha hb' hsa hlt
    rcases waiting_place hb' with ⟨rfl, -⟩ | ⟨-, hb'⟩
    · exact absurd rfl (hqu b hb)
    · rcases waiting_place ha with ⟨-, rfl⟩ | ⟨-, ha⟩
      · exact absurd (hlt.trans (h.sent hb')) (lt_irrefl _)
      · exact h.closed b hb ha hb' ((same_place name key (h.sent ha) (h.sent hb')).mp hsa) hlt
  · intro m hm
    have hlt := h.known m hm
    simp only [Spool.place, length_append]
    omega
  · intro m hm a n ha
    have hlt := h.known m hm
    rcases waiting_place ha with ⟨rfl, rfl⟩ | ⟨-, ha⟩
    · exact ⟨hlt.ne, fun _ => hlt⟩
    · exact (before_place name key hlt (h.sent ha)).mpr (h.past m hm ha)
  · refine h.ordered.imp_of_mem fun {m n} hm hn hbe => ?_
    exact (before_place name key (h.known m hm) (h.known n hn)).mpr hbe

variable {rest : List ν}

/-- The reader passes over a message that is alone with its key. -/
theorem pass (h : InOrder s) (hqu : s.queue = name :: rest) (hnm : s.waiting name = some n)
    (hal : ∀ a m, s.waiting a = some m → s.Same n m → a = name) : InOrder s.pass := by
  have hta : s.pass.queue = rest := by rw [Spool.pass, hqu, tail_cons]
  have hso := pairwise_cons.mp (hqu ▸ h.sorted)
  refine { h with sorted := hta ▸ hso.2, queued := ?_, closed := ?_ }
  · rw [hta]
    intro b hb
    exact h.queued b (hqu ▸ mem_cons_of_mem name hb)
  rw [hta]
  intro b hb a m k ha hk hsa hlt
  have hmem := h.closed b (hqu ▸ mem_cons_of_mem name hb) ha hk hsa hlt
  rw [hqu] at hmem
  rcases mem_cons.mp hmem with rfl | hmem
  · have hsa' : s.Same n k := by
      rwa [Option.some.inj (hnm.symm.trans ha)]
    obtain rfl := hal b k hk hsa'
    exact absurd (hso.1 b hb) (lt_irrefl _)
  · exact hmem

/-- The first name of the snapshot is taken: no message of its key that was sent before still
waits. -/
theorem take (h : InOrder s) (hqu : s.queue = name :: rest) (hnm : s.waiting name = some n) :
    InOrder (s.take name n) := by
  have hta : (s.take name n).queue = rest := by rw [Spool.take, hqu, tail_cons]
  have hso := pairwise_cons.mp (hqu ▸ h.sorted)
  have hst {a : ν} {m : ℕ} (ha : (s.take name n).waiting a = some m) :
      a ≠ name ∧ s.waiting a = some m := by
    by_cases heq : a = name
    · simp [Spool.take, heq] at ha
    · exact ⟨heq, by simpa [Spool.take, heq] using ha⟩
  have hfi {a : ν} {m : ℕ} (hne : a ≠ name) (ha : s.waiting a = some m) : s.Before n m := by
    have hdi : n ≠ m := by
      rintro rfl
      exact hne (h.single ha hnm)
    refine ⟨hdi, fun hsa => lt_of_not_ge fun hle => ?_⟩
    -- an earlier one would come before `name`, in the snapshot too
    have hlt : m < n := lt_of_le_of_ne hle hdi.symm
    have hmem := h.closed name (hqu ▸ mem_cons_self) ha hnm hsa.symm hlt
    rw [hqu] at hmem
    have hre := (mem_cons.mp hmem).resolve_left hne
    exact lt_asymm (h.named ha hnm hsa.symm hlt) (hso.1 a hre)
  refine ⟨fun ha => h.sent (hst ha).2, fun ha hb => h.single (hst ha).2 (hst hb).2,
    fun ha hb => h.named (hst ha).2 (hst hb).2, hta ▸ hso.2, ?_, ?_, ?_, ?_, ?_⟩
  · rw [hta]
    intro b hb
    have hne : b ≠ name := (hso.1 b hb).ne'
    obtain ⟨k, hk⟩ := h.queued b (hqu ▸ mem_cons_of_mem name hb)
    exact ⟨k, by simpa [Spool.take, hne] using hk⟩
  · rw [hta]
    intro b hb a m k ha hk hsa hlt
    have hmem := h.closed b (hqu ▸ mem_cons_of_mem name hb) (hst ha).2 (hst hk).2 hsa hlt
    rw [hqu] at hmem
    exact (mem_cons.mp hmem).resolve_left (hst ha).1
  · intro m hm
    rcases mem_append.mp hm with hm | hm
    · exact h.known m hm
    · rw [mem_singleton.mp hm]
      exact h.sent hnm
  · intro m hm a k ha
    rcases mem_append.mp hm with hm | hm
    · exact h.past m hm (hst ha).2
    · rw [mem_singleton.mp hm]
      exact hfi (hst ha).1 (hst ha).2
  · refine pairwise_append.mpr ⟨h.ordered, pairwise_singleton _ _, ?_⟩
    intro m hm k hk
    rw [mem_singleton.mp hk]
    exact h.past m hm hnm

end InOrder

end Spool

end Orchestratord.Foundation
