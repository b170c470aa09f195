import Orchestratord.Foundation.Dict
import Orchestratord.Foundation.Json
import Orchestratord.Foundation.Ranking

/-! # The reliability store

The outbox is an append-only log of records. A later record of an idempotency key supersedes
the earlier ones on read, and recovery folds the records of a key into one. The retention sweep
rewrites the log without its old records. -/

namespace Orchestratord.Gateway

open Foundation Foundation.Ranking Dict

abbrev Record := Dict String Json

variable (e : Record)

/-- The key of a record; a record without one is passed over. -/
def keyOf? : Option String :=
  match e.get "idempotency_key" with
  | some (.str key) => if key = "" then none else some key
  | _ => none

def terminal : List String := ["delivered", "dead", "failed"]

def isTerminal : Bool :=
  match e.get "status" with
  | some (.str status) => terminal.contains status
  | _ => false

def hasText : Bool :=
  match e.get "text" with
  | none | some .null => false
  | some _ => true

/-- What is known of each key while the log is read. -/
structure Scan where
  latest : Dict String Record
  payloads : Dict String Record

def Scan.read (s : Scan) (e : Record) : Scan :=
  match keyOf? e with
  | none => s
  | some key =>
    { latest := s.latest.set key e
      payloads := if hasText e then s.payloads.set key e else s.payloads }

def scan (log : List Record) : Scan := log.foldl .read ⟨.empty, .empty⟩

/-- The latest status over the record that holds the text. -/
def merged (payload : Option Record) (status : Record) : Record :=
  match payload with
  | none => status
  | some record => record.update (status.erase "text")

def outboxReplayable (log : List Record) : List Record :=
  (scan log).latest.entries.filterMap fun e =>
    if isTerminal e.2 then none else some (merged ((scan log).payloads.get e.1) e.2)

/-! ## Retention -/

/-- Truth values are numbers. -/
def number? : Json → Option ℚ
  | .bool b => some (if b then 1 else 0)
  | .int n => some n
  | .float q => some q
  | _ => none

def entryTimestamp (entry : Record) (fields : List String) : Option ℚ :=
  fields.findSome? fun field => (entry.get field).bind number?

/-- No time, or a time of zero, counts as the position in the file. -/
def sortKey (fields : List String) (item : Item Record) : ℚ :=
  match entryTimestamp item.1 fields with
  | none => item.2
  | some ts => if ts = 0 then item.2 else ts

variable {α : Type*}

/-- `items[:n]`: a negative bound counts from the end. -/
def upTo (items : List α) (n : Int) : List α :=
  items.take (if 0 ≤ n then n.toNat else (items.length + n).toNat)

variable (entries : List Record)
variable (ttlSeconds maxEntries : Int)

/-- What stays of a file, and how many records went. -/
def purgeNdjsonTtlCap (tsFields : List String) (now : ℚ) : List Record × ℕ :=
  let cutoff := now - ttlSeconds
  let survivors := entries.zipIdx.filter fun item =>
    (entryTimestamp item.1 tsFields).all (cutoff ≤ ·)
  let survivors :=
    if maxEntries < survivors.length then
      sortByPosition (upTo (sortDesc (sortKey tsFields) survivors) maxEntries)
    else survivors
  let kept := survivors.map Prod.fst
  (kept, entries.length - kept.length)

variable (now : ℚ)

def purgeProcessedInbound := purgeNdjsonTtlCap entries ttlSeconds maxEntries ["seen_at"] now

def purgeOutbox := purgeNdjsonTtlCap entries ttlSeconds maxEntries ["at", "timestamp"] now

def purgeUnsupportedInbound :=
  purgeNdjsonTtlCap entries ttlSeconds maxEntries ["received_at", "at", "timestamp"] now

structure ReliabilityConfig where
  retentionEnabled : Bool := true
  retentionProcessedInboundTtlSeconds : Int := 7 * 86400
  retentionProcessedInboundMaxEntries : Int := 10000
  retentionOutboxTtlSeconds : Int := 30 * 86400
  retentionOutboxMaxEntries : Int := 50000
  retentionUnsupportedInboundTtlSeconds : Int := 7 * 86400
  retentionUnsupportedInboundMaxEntries : Int := 10000

/-- The files that the sweep keeps bounded. -/
structure Files where
  processedInbound : List Record
  outbox : List Record
  unsupportedInbound : List Record

/-- Each file is read against the clock of its own moment. -/
structure SweepTimes where
  processedInbound : ℚ
  outbox : ℚ
  unsupportedInbound : ℚ

variable (files : Files) (reliability : ReliabilityConfig) (now : SweepTimes)

def purgeAll : Files × List (String × ℕ) :=
  let processed := purgeProcessedInbound files.processedInbound
    reliability.retentionProcessedInboundTtlSeconds
    reliability.retentionProcessedInboundMaxEntries now.processedInbound
  let outbox := purgeOutbox files.outbox reliability.retentionOutboxTtlSeconds
    reliability.retentionOutboxMaxEntries now.outbox
  let unsupported := purgeUnsupportedInbound files.unsupportedInbound
    reliability.retentionUnsupportedInboundTtlSeconds
    reliability.retentionUnsupportedInboundMaxEntries now.unsupportedInbound
  (⟨processed.1, outbox.1, unsupported.1⟩,
    [("processed_inbound.ndjson", processed.2), ("outbox.ndjson", outbox.2),
      ("unsupported_inbound.ndjson", unsupported.2)])

def runRetentionSweep : Files × List (String × ℕ) :=
  if reliability.retentionEnabled then purgeAll files reliability now else (files, [])

/-! ## What the scan finds -/

def latest (key : String) (log : List Record) : Option Record :=
  (log.filter (keyOf? · = some key)).getLast?

def payload (key : String) (log : List Record) : Option Record :=
  (log.filter fun e => keyOf? e = some key ∧ hasText e).getLast?

variable (log : List Record) (key : String)

theorem scan_append_singleton (e : Record) : scan (log ++ [e]) = (scan log).read e := by
  simp [scan]

theorem getLast?_filter_append_singleton (p : α → Bool) (l : List α) (a : α) :
    ((l ++ [a]).filter p).getLast? = if p a then some a else (l.filter p).getLast? := by
  by_cases ha : p a <;> simp [ha]

theorem latest_append_singleton (log : List Record) (e : Record) :
    latest key (log ++ [e]) = if keyOf? e = some key then some e else latest key log := by
  rw [latest, getLast?_filter_append_singleton]
  simp [latest]

theorem payload_append_singleton (log : List Record) (e : Record) : payload key (log ++ [e]) =
      if keyOf? e = some key ∧ hasText e then some e else payload key log := by
  rw [payload, getLast?_filter_append_singleton]
  simp [payload]

theorem get_scan_latest : (scan log).latest.get key = latest key log := by
  induction log using List.reverseRecOn with
  | nil => rfl
  | append_singleton _ e ih =>
    rw [scan_append_singleton, latest_append_singleton, Scan.read]
    rcases hkey : keyOf? e with _ | other
    · simpa using ih
    rw [get_set, ih]
    by_cases h : key = other
    · simp [h]
    · simp [h, Ne.symm h]

theorem get_scan_payloads : (scan log).payloads.get key = payload key log := by
  induction log using List.reverseRecOn with
  | nil => rfl
  | append_singleton _ e ih =>
    rw [scan_append_singleton, payload_append_singleton, Scan.read]
    rcases hkey : keyOf? e with _ | other
    · simpa using ih
    by_cases hte : hasText e
    · simp only [hte, if_true, get_set, ih]
      by_cases h : key = other
      · simp [h]
      · simp [h, Ne.symm h]
    · simpa [hte] using ih

variable {log : List Record} {key : String}

theorem keyOf?_latest {e : Record} (h : latest key log = some e) : keyOf? e = some key :=
  of_decide_eq_true (List.mem_filter.mp (List.mem_of_getLast? h)).2

variable {r : Record}

/-- The replayable records: one for every key whose latest record is not terminal. -/
theorem mem_outboxReplayable :
    r ∈ outboxReplayable log ↔ ∃ key status, latest key log = some status ∧
      isTerminal status = false ∧ r = merged (payload key log) status := by
  unfold outboxReplayable
  rw [List.mem_filterMap]
  constructor
  · rintro ⟨⟨key, status⟩, hmem, hr⟩
    rw [mem_entries_iff, get_scan_latest] at hmem
    rw [get_scan_payloads] at hr
    by_cases hte : isTerminal status
    · simp [hte] at hr
    · rw [if_neg hte, Option.some.injEq] at hr
      exact ⟨key, status, hmem, by simpa using hte, hr.symm⟩
  · rintro ⟨key, status, hla, hte, rfl⟩
    refine ⟨(key, status), ?_, ?_⟩
    · rw [mem_entries_iff, get_scan_latest, hla]
    · simp [hte, get_scan_payloads]

variable {p : Option Record} {status : Record}

/-- The status decides every field that it has, the text apart. -/
theorem get_merged_of_status {field : String} {v : Json}
    (hfi : field ≠ "text") (hv : status.get field = some v) :
    (merged p status).get field = some v := by
  cases p with
  | none => exact hv
  | some =>
    rw [merged, get_update, get_erase_ne _ hfi, hv]
    rfl

/-- The text is that of the record that has one. -/
theorem get_merged_text (record status : Record) :
    (merged (some record) status).get "text" = record.get "text" := by
  rw [merged, get_update, get_erase_self]
  rfl

theorem keyOf?_merged (h : keyOf? status = some key) : keyOf? (merged p status) = some key := by
  unfold keyOf? at h ⊢
  split at h
  case h_1 _ hfo =>
    rwa [get_merged_of_status (by decide) hfo]
  · cases h

/-- A replayable record is that of its own key. -/
theorem eq_merged_of_mem_outboxReplayable (hr : r ∈ outboxReplayable log)
    (hkey : keyOf? r = some key) :
    ∃ status, latest key log = some status ∧ isTerminal status = false ∧
      r = merged (payload key log) status := by
  obtain ⟨key', status, hla, hte, rfl⟩ := mem_outboxReplayable.mp hr
  rw [keyOf?_merged (keyOf?_latest hla), Option.some.injEq] at hkey
  subst hkey
  exact ⟨status, hla, hte, rfl⟩

end Orchestratord.Gateway
