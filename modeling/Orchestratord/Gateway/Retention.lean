import Orchestratord.Gateway.Store

/-! # Retention and recovery

A sweep drops single lines of the outbox by age and by count, and recovery folds the lines of a
key together. The two agree when no key is left with a part of its lines that reads otherwise. -/

namespace Orchestratord.Gateway

open Foundation Foundation.Ranking List

/-! ## Which lines stay -/

def outboxTimes : List String := ["at", "timestamp"]

/-- A line that has no time, or is not older than the limit. -/
def Fresh (ttlSeconds : Int) (now : ℚ) (item : Item Record) : Prop :=
  ∀ ts ∈ entryTimestamp item.1 outboxTimes, now - ttlSeconds ≤ ts

instance (ttlSeconds : Int) (now : ℚ) (item : Item Record) :
    Decidable (Fresh ttlSeconds now item) :=
  decidable_of_iff ((entryTimestamp item.1 outboxTimes).all (now - ttlSeconds ≤ ·))
    (by unfold Fresh; cases entryTimestamp item.1 outboxTimes <;> simp)

variable (log : List Record)

def freshItems (ttlSeconds : Int) (now : ℚ) : List (Item Record) :=
  log.zipIdx.filter (Fresh ttlSeconds now)

variable (ttlSeconds maxEntries : Int) (now : ℚ)

/-- How many lines the cap leaves room for. -/
def room : ℕ :=
  if 0 ≤ maxEntries then maxEntries.toNat
  else ((freshItems log ttlSeconds now).length + maxEntries).toNat

/-- A line stays when it is fresh, and fewer fresh lines than the cap leaves room for are
newer, or as new and earlier in the file. -/
def Stays (item : Item Record) : Prop :=
  Fresh ttlSeconds now item ∧ rank (sortKey outboxTimes) (freshItems log ttlSeconds now) item <
      room log ttlSeconds maxEntries now

instance (item : Item Record) : Decidable (Stays log ttlSeconds maxEntries now item) :=
  inferInstanceAs (Decidable (_ ∧ _))

def staying : List (Item Record) := log.zipIdx.filter (Stays log ttlSeconds maxEntries now)

theorem positioned_zipIdx : Positioned log.zipIdx := by
  have hpos : (log.zipIdx.map Prod.snd).Pairwise (· < ·) := by
    rw [zipIdx_map_snd]
    exact pairwise_lt_range'
  exact pairwise_map.mp hpos

theorem staying_eq_filter_fresh :
    staying log ttlSeconds maxEntries now = (freshItems log ttlSeconds now).filter
      (rank (sortKey outboxTimes) (freshItems log ttlSeconds now) · <
        room log ttlSeconds maxEntries now) := by
  rw [freshItems, filter_filter]
  refine filter_congr fun item _ => ?_
  rw [← Bool.decide_and]
  exact decide_eq_decide.mpr and_comm

/-- The sweep keeps the lines that stay, in their order. -/
theorem purgeOutbox_eq : (purgeOutbox log ttlSeconds maxEntries now).1 =
      (staying log ttlSeconds maxEntries now).map Prod.fst := by
  have hpos : Positioned (freshItems log ttlSeconds now) := (positioned_zipIdx log).filter _
  have hfr : (log.zipIdx.filter fun item =>
    (entryTimestamp item.1 outboxTimes).all (now - ttlSeconds ≤ ·)) =
    freshItems log ttlSeconds now := by
    refine filter_congr fun item _ => ?_
    rw [Bool.eq_iff_iff, decide_eq_true_eq, Fresh]
    cases entryTimestamp item.1 outboxTimes <;> simp
  rw [staying_eq_filter_fresh, purgeOutbox]
  show (if _ then _ else _ : List (Item Record)).map Prod.fst = _
  rw [← outboxTimes, hfr]
  congr 1
  split
  case isTrue hma =>
    have hle : (sortDesc (sortKey outboxTimes) (freshItems log ttlSeconds now)).length =
        (freshItems log ttlSeconds now).length := length_insertionSort _ _
    rw [upTo, hle]
    exact sortByPosition_take_sortDesc hpos _
  case isFalse hfew =>
    refine (filter_eq_self.mpr fun item him => decide_eq_true ?_).symm
    have hra : rank (sortKey outboxTimes) (freshItems log ttlSeconds now) item <
        (freshItems log ttlSeconds now).length := rank_lt_length him
    rw [room, if_pos (by omega)]
    omega

/-! ## Transparency -/

/-- What is replayable afterwards was so before, with the same record, and no key that had come
to a terminal status is replayed. -/
def Transparent (before after : List Record) : Prop :=
  (∀ r ∈ outboxReplayable after, r ∈ outboxReplayable before) ∧
    ∀ key status, latest key before = some status → isTerminal status →
      ∀ r ∈ outboxReplayable after, keyOf? r ≠ some key

variable (key : String) (items : List (Item Record))

def latestItem : Option (Item Record) := (items.filter (keyOf? ·.1 = some key)).getLast?

variable (log : List Record)

/-- A key that would be replayed from the lines that stay keeps its last line, and a line with
the text that completes it to the same record. -/
def Covers (ttlSeconds maxEntries : Int) (now : ℚ) : Prop :=
  ∀ key item, latestItem key (staying log ttlSeconds maxEntries now) = some item →
    isTerminal item.1 = false →
    latestItem key log.zipIdx = some item ∧
      merged (payload key ((staying log ttlSeconds maxEntries now).map Prod.fst)) item.1 =
        merged (payload key log) item.1

/-- The lines of a key tell their times apart. -/
def Stamped : Prop :=
  ∀ a ∈ log.zipIdx, ∀ b ∈ log.zipIdx, ∀ key, keyOf? a.1 = some key → keyOf? b.1 = some key →
    ∃ time, a.1.get "at" = some time ∧ (b.1.get "at" = some time → a = b)

theorem latest_map_fst : latest key (items.map Prod.fst) = (latestItem key items).map Prod.fst := by
  rw [latest, filter_map, getLast?_map]
  rfl

theorem latest_eq_latestItem : latest key log = (latestItem key log.zipIdx).map Prod.fst := by
  rw [← latest_map_fst, zipIdx_map_fst]

theorem mem_of_latestItem {key : String} {items : List (Item Record)} {item : Item Record}
    (h : latestItem key items = some item) : item ∈ items ∧ keyOf? item.1 = some key := by
  obtain ⟨hmem, hkey⟩ := mem_filter.mp (mem_of_getLast? h)
  exact ⟨hmem, of_decide_eq_true hkey⟩

/-- The second half of transparency follows from the first. -/
theorem transparent_iff {before after : List Record} :
    Transparent before after ↔ ∀ r ∈ outboxReplayable after, r ∈ outboxReplayable before := by
  refine ⟨And.left, fun hsa => ⟨hsa, ?_⟩⟩
  intro _ _ hla hte r hr hkey
  obtain ⟨_, hfo, hop, -⟩ := eq_merged_of_mem_outboxReplayable (hsa r hr) hkey
  rw [hla, Option.some.injEq] at hfo
  subst hfo
  rw [hte] at hop
  cases hop

section

variable {log : List Record} {ttlSeconds maxEntries : Int} {now : ℚ}

theorem transparent_of_covers (hco : Covers log ttlSeconds maxEntries now) :
    Transparent log (purgeOutbox log ttlSeconds maxEntries now).1 := by
  rw [transparent_iff, purgeOutbox_eq]
  intro r hr
  obtain ⟨key, _, hla, hop, rfl⟩ := mem_outboxReplayable.mp hr
  rw [latest_map_fst, Option.map_eq_some_iff] at hla
  obtain ⟨item, him, rfl⟩ := hla
  obtain ⟨hls, hsa⟩ := hco key item him hop
  rw [hsa]
  refine mem_outboxReplayable.mpr ⟨key, item.1, ?_, hop, rfl⟩
  rw [latest_eq_latestItem, hls]
  rfl

theorem covers_of_transparent (hst : Stamped log)
    (htr : Transparent log (purgeOutbox log ttlSeconds maxEntries now).1) :
    Covers log ttlSeconds maxEntries now := by
  rw [purgeOutbox_eq] at htr
  intro key item him hop
  obtain ⟨hsta, hkey⟩ := mem_of_latestItem him
  have hin : item ∈ log.zipIdx := (mem_filter.mp hsta).1
  have hlat : latest key ((staying log ttlSeconds maxEntries now).map Prod.fst) = some item.1 := by
    rw [latest_map_fst, him]
    rfl
  have haf := mem_outboxReplayable.mpr ⟨key, item.1, hlat, hop, rfl⟩
  obtain ⟨_, hss, -, hre⟩ := eq_merged_of_mem_outboxReplayable (htr.1 _ haf) (keyOf?_merged hkey)
  rw [latest_eq_latestItem, Option.map_eq_some_iff] at hss
  obtain ⟨last, hlt, rfl⟩ := hss
  obtain ⟨hls, hla⟩ := mem_of_latestItem hlt
  -- the merged record shows the time of its last line, so both have the same last line
  obtain ⟨_, hti, hun⟩ := hst item hin last hls key hkey hla
  obtain ⟨_, hti', -⟩ := hst last hls last hls key hla hla
  have hle := get_merged_of_status
    (p := payload key ((staying log ttlSeconds maxEntries now).map Prod.fst)) (by decide) hti
  have hri := get_merged_of_status (p := payload key log) (by decide) hti'
  rw [hre, hri] at hle
  obtain rfl : item = last := hun (hle ▸ hti')
  exact ⟨hlt, hre⟩

end

variable (files : Files) (reliability : ReliabilityConfig) (now : SweepTimes)

/-- The sweep is off, or its settings cover every key of the outbox. -/
def SweepCovers : Prop :=
  reliability.retentionEnabled = true → Covers files.outbox
    reliability.retentionOutboxTtlSeconds reliability.retentionOutboxMaxEntries now.outbox

theorem runRetentionSweep_outbox : (runRetentionSweep files reliability now).1.outbox =
      if reliability.retentionEnabled then
        (purgeOutbox files.outbox reliability.retentionOutboxTtlSeconds
          reliability.retentionOutboxMaxEntries now.outbox).1
      else files.outbox := by
  unfold runRetentionSweep
  split <;> rfl

/-- A sweep is transparent to recovery when it covers every key; where the lines of a key tell
their times apart, only then. -/
theorem runRetentionSweep_transparent_iff (files : Files) (reliability : ReliabilityConfig)
    (now : SweepTimes) : (SweepCovers files reliability now →
      Transparent files.outbox (runRetentionSweep files reliability now).1.outbox) ∧
    (Stamped files.outbox →
      (Transparent files.outbox (runRetentionSweep files reliability now).1.outbox ↔
        SweepCovers files reliability now)) := by
  have hsu : SweepCovers files reliability now →
      Transparent files.outbox (runRetentionSweep files reliability now).1.outbox := by
    intro hco
    rw [runRetentionSweep_outbox]
    split
    case isTrue hen => exact transparent_of_covers (hco hen)
    · exact transparent_iff.mpr fun _ hr => hr
  refine ⟨hsu, fun hst => ⟨fun htr hen => ?_, hsu⟩⟩
  rw [runRetentionSweep_outbox, if_pos hen] at htr
  exact covers_of_transparent hst htr

def pendingLine (text : String) (at_ : ℚ) : Record where
  entries := [("idempotency_key", .str key), ("channel", .str "ops"), ("text", .str text),
    ("status", .str "pending"), ("at", .float at_)]
  nodup := by simp

def statusLine (status : String) (at_ : ℚ) : Record where
  entries := [("idempotency_key", .str key), ("channel", .str "ops"), ("status", .str status),
    ("at", .float at_)]
  nodup := by simp

def outboxOnly (log : List Record) : Files := ⟨[], log, []⟩

/-- The retry of a message, some time after its first line. -/
def retrying : List Record := [pendingLine "k" "hi" 10, statusLine "k" "retry_pending" 20]

/-- Sent and delivered within one tick of the clock. -/
def delivered : List Record := [pendingLine "k" "hi" 10, statusLine "k" "delivered" 10]

/-- A line that is too old goes while a later line of its key stays, and the message is replayed
without its text. Of two lines of one moment a cap keeps the one that was written first, and a
message that was delivered is replayed. -/
theorem sweep_not_transparent : ¬ Transparent retrying (runRetentionSweep (outboxOnly retrying)
        { retentionOutboxTtlSeconds := 85 } ⟨100, 100, 100⟩).1.outbox ∧
      ¬ Transparent delivered (runRetentionSweep (outboxOnly delivered)
        { retentionOutboxMaxEntries := 1 } ⟨100, 100, 100⟩).1.outbox := by
  constructor
  · have hlo : ∃ r ∈ outboxReplayable (runRetentionSweep (outboxOnly retrying)
        { retentionOutboxTtlSeconds := 85 } ⟨100, 100, 100⟩).1.outbox, hasText r = false := by
      decide +kernel
    have hte : ∀ r ∈ outboxReplayable retrying, hasText r = true := by decide +kernel
    obtain ⟨r, hr, hno⟩ := hlo
    intro htr
    rw [hte r (htr.1 r hr)] at hno
    cases hno
  · have hre : ∃ r ∈ outboxReplayable (runRetentionSweep (outboxOnly delivered)
        { retentionOutboxMaxEntries := 1 } ⟨100, 100, 100⟩).1.outbox, keyOf? r = some "k" := by
      decide +kernel
    obtain ⟨r, hr, hkey⟩ := hre
    intro htr
    exact htr.2 "k" (statusLine "k" "delivered" 10) rfl (by decide) r hr hkey

end Orchestratord.Gateway
