import Orchestratord.Gateway.SendTrace

/-! # Recovery of a send

A crash leaves a part of the effects of a send and the log that they are written to. The replay
brings every chunk to the channel or to a terminal record exactly when the last chunk was on
record before the crash, in a form that can be read and sent again. -/

namespace Orchestratord.Gateway

open Foundation OutboundDispatcher
open List hiding getElem?_eq_some_iff

/-! ## Reading the log -/

variable {log : List Record} {effects : List Effect} {key : String} {record : Record}
  {printer : Printer}

theorem get_of_keyOf? (h : keyOf? record = some key) :
    record.get "idempotency_key" = some (.str key) ∧ key ≠ "" := by
  unfold keyOf? at h
  split at h
  case h_1 _ hfo =>
    split at h
    · cases h
    case isFalse hne =>
      cases h
      exact ⟨hfo, hne⟩
  · cases h

theorem Printer.mem_written {line : Line} : line ∈ printer.written effects ↔
      ∃ record, .outbox record ∈ effects ∧ line ∈ printer.lines record := by
  unfold written
  rw [mem_flatMap]
  constructor
  · rintro ⟨e, he, hli⟩
    cases e with
    | outbox record => exact ⟨record, he, hli⟩
    | deadLetter | audit | hand => cases hli
  · rintro ⟨record, he, hli⟩
    exact ⟨.outbox record, he, hli⟩

/-- A line with a key is a record that was appended and read back whole. -/
theorem Printer.outbox_of_mem_written (hli : .object record ∈ printer.written effects)
    (hkey : keyOf? record = some key) : .outbox record ∈ effects ∧ torn record = false := by
  obtain ⟨appended, he, hmem⟩ := printer.mem_written.mp hli
  cases hto : torn appended with
  | true =>
    have hno := printer.lines_torn appended hto _ hmem
    rw [Line.key?, hkey] at hno
    cases hno
  | false =>
    rw [printer.lines_whole appended hto, mem_singleton, Line.object.injEq] at hmem
    subst hmem
    exact ⟨he, hto⟩

theorem Printer.mem_written_of_whole (he : .outbox record ∈ effects) (hto : torn record = false) :
    .object record ∈ printer.written effects := by
  refine printer.mem_written.mpr ⟨record, he, ?_⟩
  rw [printer.lines_whole record hto]
  exact mem_singleton_self _

variable {records : List Record}

theorem records?_eq_some {log : List Line} (h : records? log = some records)
    (record : Record) : record ∈ records ↔ .object record ∈ log := by
  induction log generalizing records with
  | nil =>
    obtain rfl : [] = records := by simpa [records?] using h
    simp
  | cons line _ ih =>
    cases line with
    | other => cases h
    | object =>
      obtain ⟨_, hla, rfl⟩ := Option.map_eq_some_iff.mp h
      simp [ih hla]

theorem records?_eq_none {log : List Line} : records? log = none ↔ .other ∈ log := by
  induction log with
  | nil => simp [records?]
  | cons line _ ih =>
    cases line with
    | other => simp [records?]
    | object => simp [records?, ih]

theorem mem_of_latest (h : latest key log = some record) : record ∈ log :=
  (mem_filter.mp (mem_of_getLast? h)).1

theorem mem_of_payload (h : payload key log = some record) :
    record ∈ log ∧ keyOf? record = some key ∧ hasText record := by
  obtain ⟨hmem, hbo⟩ := mem_filter.mp (mem_of_getLast? h)
  exact ⟨hmem, of_decide_eq_true hbo⟩

theorem exists_latest (hmem : record ∈ log) (hkey : keyOf? record = some key) :
    ∃ status, latest key log = some status := by
  refine Option.ne_none_iff_exists'.mp fun hno => ?_
  have hem := getLast?_eq_none_iff.mp hno
  exact filter_eq_nil_iff.mp hem record hmem (decide_eq_true hkey)

theorem exists_payload (hmem : record ∈ log) (hkey : keyOf? record = some key)
    (hte : hasText record) : ∃ found, payload key log = some found := by
  refine Option.ne_none_iff_exists'.mp fun hno => ?_
  have hem := getLast?_eq_none_iff.mp hno
  exact filter_eq_nil_iff.mp hem record hmem (decide_eq_true (.intro hkey hte))

/-- A replayed record stands for a line of the log with its key. -/
theorem mem_log_of_mem_outboxReplayable {entry : Record} (h : entry ∈ outboxReplayable log) :
    ∃ key, keyOf? entry = some key ∧ ∃ record ∈ log, keyOf? record = some key := by
  obtain ⟨key, status, hla, -, rfl⟩ := mem_outboxReplayable.mp h
  have hkey := keyOf?_latest hla
  exact ⟨key, keyOf?_merged hkey, status, mem_of_latest hla, hkey⟩

variable {worlds : ℕ → SendWorld} {g : OutboundDispatcher} {e : Effect}

theorem mem_replayPendingOutbox {log : List Line} (hre : records? log = some records) :
    e ∈ g.replayPendingOutbox log worlds ↔ ∃ entry i, (outboxReplayable records)[i]? = some entry ∧
        e ∈ g.replayEntry entry (worlds i) := by
  simp only [replayPendingOutbox, hre, mem_flatMap, Prod.exists, mk_mem_zipIdx_iff_getElem?]

/-! ## Replaying one entry -/

variable {m : OutboundMessage} {k : String} {w : SendWorld}

section

theorem idemOf_ne_empty (m : OutboundMessage) (uuid : String) : idemOf m uuid ≠ "" := by
  have hfr : "out:" ++ uuid ≠ "" := by
    intro h
    have hle := congrArg String.length h
    simp at hle
  unfold idemOf
  split
  · split
    · exact hfr
    case isFalse hne => exact hne
  · exact hfr

def chunksOf (g : OutboundDispatcher) (m : OutboundMessage) : List String :=
  (g.prepareText m.channel m.text).1

/-- The channel is there and may be sent to. -/
def Accepts (g : OutboundDispatcher) (channel : String) : Prop :=
  g.registered channel = true ∧ g.gateError channel = none

theorem send_eq_sendChunks (hac : Accepts g m.channel) :
    g.send m w = g.sendChunks m (idemOf m w.uuid) (chunksOf g m).length
      (g.prepareText m.channel m.text).2 w.answers 0 .successful (chunksOf g m) := by
  unfold send
  rw [if_pos hac.1, hac.2]
  rfl

theorem send_partSpec (hac : Accepts g m.channel) {part : List Effect}
    (hpa : part <+: (g.send m w).1) :
    PartSpec m (idemOf m w.uuid) (chunksOf g m).length w.answers 0 (chunksOf g m) part := by
  rw [send_eq_sendChunks hac] at hpa
  exact sendChunks_partSpec (idemOf_ne_empty m w.uuid) (fun h => h.le) hpa

variable {entry : Record}

/-- A send is about its own key and the keys of its chunks. -/
theorem send_keys (he : e ∈ (g.send m w).1) (hk : e.key? = some k) : k = idemOf m w.uuid ∨
      ∃ i, k = chunkKey (idemOf m w.uuid) (chunksOf g m).length i := by
  have hde : ∀ error now, e ∈ [.outbox (deadRecord (idemOf m w.uuid) m.channel error now)] →
      k = idemOf m w.uuid := by
    intro error now he
    obtain rfl := mem_singleton.mp he
    exact eq_of_keyOf? (statusOf_dead _ m.channel error now).key hk
  by_cases hac : Accepts g m.channel
  · obtain ⟨i, -, -, hkey⟩ := (send_partSpec hac prefix_rfl).keys e he k hk
    exact .inr ⟨0 + i, hkey⟩
  unfold send at he
  split at he
  case isTrue hre =>
    split at he
    · exact .inl (hde _ _ he)
    case h_2 hga => exact absurd ⟨hre, hga⟩ hac
  · exact .inl (hde _ _ he)

theorem idemOf_rebuild (entry : Record) (hkey : key ≠ "") (channel : String) (text : Json)
    (uuid : String) : idemOf (g.rebuild entry key channel text) uuid = key := by
  simp [idemOf, rebuild, hkey]

theorem strOr_str (s : String) : g.strOr (some (.str s)) = s := rfl

/-- The key of a piece of the text that an entry holds. -/
def pieceKey (key : String) (j : ℕ) : String := key ++ "#" ++ toString j

theorem chunkKey_eq_or (key : String) (total i : ℕ) :
    chunkKey key total i = key ∨ chunkKey key total i = pieceKey key i := by
  unfold chunkKey
  split
  · exact .inl rfl
  · exact .inr rfl

theorem replayEntry_keys (hkey : keyOf? entry = some key) (he : e ∈ g.replayEntry entry w)
    (hk : e.key? = some k) : k = key ∨ ∃ j, k = pieceKey key j := by
  obtain ⟨hget, hne⟩ := get_of_keyOf? hkey
  have hde : ∀ channel error now, e ∈ [.outbox (deadRecord key channel error now)] → k = key := by
    intro channel error now he
    obtain rfl := mem_singleton.mp he
    exact eq_of_keyOf? (statusOf_dead _ channel error now).key hk
  have hsn : ∀ channel text, e ∈ (g.send (g.rebuild entry key channel text) w).1 →
      k = key ∨ ∃ j, k = pieceKey key j := by
    intro _ _ he
    have hke := send_keys he hk
    rw [idemOf_rebuild entry hne] at hke
    rcases hke with hown | ⟨i, hch⟩
    · exact .inl hown
    · rw [hch]
      exact (chunkKey_eq_or key _ i).imp_right fun h => ⟨i, h⟩
  unfold replayEntry at he
  simp only [hget, strOr_str, hne, if_false] at he
  split at he
  · exact .inl (hde _ _ _ he)
  · exact .inl (hde _ _ _ he)
  split at he
  · exact .inl (hde _ _ _ he)
  split at he
  case h_1 hse => exact hsn _ _ (by rw [hse]; exact he)
  rename_i hse
  rcases mem_append.mp he with he | he
  · exact hsn _ _ (by rw [hse]; exact he)
  · exact .inl (hde _ _ _ he)

variable {channel text : String}

/-- An entry whose text is one piece again is settled by the replay. -/
theorem replayEntry_settled (hkey : keyOf? entry = some key)
    (hch : entry.get "channel" = some (.str channel))
    (hte : entry.get "text" = some (.str text)) (hac : Accepts g channel)
    (hpi : channel = "" ∨ (g.prepareText channel text).1.length = 1) :
    Settled key (g.replayEntry entry w) := by
  obtain ⟨hget, hne⟩ := get_of_keyOf? hkey
  unfold replayEntry
  simp only [hget, hch, hte, strOr_str, hne, false_or]
  split
  · exact ⟨_, mem_singleton_self _, settles_of_terminal hne (statusOf_dead ..) rfl⟩
  rename_i hch
  have hone := hpi.resolve_left hch
  have hse : Settled key (g.send (g.rebuild entry key channel (.str text)) w).1 := by
    have hcs : chunksOf g (g.rebuild entry key channel (.str text)) =
        (g.prepareText channel text).1 := rfl
    obtain ⟨_, hpi⟩ := length_eq_one_iff.mp hone
    rw [send_eq_sendChunks hac, idemOf_rebuild entry hne, hcs, hpi]
    exact sendChunks_settles_first hne 0 .successful []
  split
  case h_1 hsn =>
    rwa [hsn] at hse
  case h_2 hsn =>
    rw [hsn] at hse
    exact hse.mono (subset_append_left _ _)

/-- A channel that takes everything at once. -/
def obliging : ChunkAnswers where
  answer _ := .returns .successful
  plain := .returns .successful
  clock _ := 0

def obligingWorld : SendWorld where
  answers _ := obliging
  now := 0
  uuid := ""

theorem sendChunks_obliging (idem : String) (total : ℕ) (stripped : Bool) (index : ℕ)
    (last : ChannelSendResult) (chunks : List String) :
    ∃ r, (g.sendChunks m idem total stripped (fun _ => obliging) index last chunks).2 =
      .returned r := by
  induction chunks generalizing index last with
  | nil => exact ⟨last, rfl⟩
  | cons chunk _ ih =>
    have hse : (g.sendChunkWithRetry m (chunkKey idem total index) chunk stripped obliging).2 =
        .returned .successful := by
      unfold sendChunkWithRetry retryLoop
      rfl
    simp only [sendChunks]
    generalize g.sendChunkWithRetry m (chunkKey idem total index) chunk stripped obliging = sent
      at hse ⊢
    obtain ⟨_, _⟩ := sent
    subst hse
    exact ih (index + 1) .successful

/-- An entry whose text is no longer one piece is sent under the keys of its pieces only. -/
theorem replayEntry_obliging_keys
    (hkey : keyOf? entry = some key) (hch : entry.get "channel" = some (.str channel))
    (hte : entry.get "text" = some (.str text)) (hac : Accepts g channel)
    (hna : channel ≠ "") (hpi : (g.prepareText channel text).1.length ≠ 1) (he : e ∈ g.replayEntry entry obligingWorld)
    (hk : e.key? = some k) : ∃ j, k = pieceKey key j := by
  obtain ⟨hget, hne⟩ := get_of_keyOf? hkey
  have hcs : chunksOf g (g.rebuild entry key channel (.str text)) =
      (g.prepareText channel text).1 := rfl
  have hsn : g.send (g.rebuild entry key channel (.str text)) obligingWorld = _ :=
    send_eq_sendChunks hac
  have hsp := send_partSpec (w := obligingWorld)
    (m := g.rebuild entry key channel (.str text)) hac prefix_rfl
  obtain ⟨r, hre⟩ := sendChunks_obliging
    (idemOf (g.rebuild entry key channel (.str text)) obligingWorld.uuid)
    (chunksOf g (g.rebuild entry key channel (.str text))).length
    (g.prepareText channel text).2 0 .successful
    (chunksOf g (g.rebuild entry key channel (.str text)))
  rw [idemOf_rebuild entry hne, hcs] at hsp
  unfold replayEntry at he
  simp only [hget, hch, hte, strOr_str, hne, hna, or_self, if_false] at he
  have hin : e ∈ (g.send (g.rebuild entry key channel (.str text)) obligingWorld).1 := by
    split at he
    case h_1 hse =>
      rwa [hse]
    case h_2 hse =>
      have hra := hsn.symm.trans hse
      rw [Prod.ext_iff] at hra
      cases hre.symm.trans hra.2
  obtain ⟨i, -, -, hsa⟩ := hsp.keys e hin k hk
  refine ⟨0 + i, ?_⟩
  rw [hsa, chunkKey, if_neg hpi]
  rfl

end

/-! ## A crash and the replay after it -/

/-- Keys under which a replay could send a chunk of the message. -/
def Related (idem : String) (total : ℕ) (k : String) : Prop :=
  ∃ i < total, k = chunkKey idem total i ∨ ∃ j, pieceKey k j = chunkKey idem total i

/-- The process ended after a part of the send. The log may hold lines of other messages, before,
between and after those of this one, but none with a key that this message claims. -/
structure Crashed (g : OutboundDispatcher) (printer : Printer) (m : OutboundMessage)
    (w : SendWorld) (done : List Effect) (log : List Line) : Prop where
  accepts : Accepts g m.channel
  cut : done <+: (g.send m w).1
  own : ∀ k, Related (idemOf m w.uuid) (chunksOf g m).length k → ∀ line : Line,
    line.key? = some k → (line ∈ log ↔ line ∈ printer.written done)

/-- The key of a chunk of the message. -/
def keyAt (g : OutboundDispatcher) (m : OutboundMessage) (w : SendWorld) (i : ℕ) : String :=
  chunkKey (idemOf m w.uuid) (chunksOf g m).length i

/-- The pending record of a chunk of the message. -/
def pendingAt (g : OutboundDispatcher) (m : OutboundMessage) (w : SendWorld) (i : ℕ)
    (chunk : String) : Record :=
  pendingOf m (idemOf m w.uuid) (chunksOf g m).length w.answers i chunk

/-- Every chunk was handed to the channel, or has a terminal record. -/
def Recovered (g : OutboundDispatcher) (m : OutboundMessage) (w : SendWorld)
    (effects : List Effect) : Prop :=
  ∀ i < (chunksOf g m).length, Settled (keyAt g m w i) effects

/-- The last chunk was on record before the crash. If it was not settled by then, the log can be
read, the record comes back whole, and its text is one piece again when it is prepared. -/
def Resumable (g : OutboundDispatcher) (m : OutboundMessage) (w : SendWorld) (done : List Effect)
    (log : List Line) : Prop :=
  ∀ i chunk, i + 1 = (chunksOf g m).length → (chunksOf g m)[i]? = some chunk →
    .outbox (pendingAt g m w i chunk) ∈ done ∧ (Settled (keyAt g m w i) done ∨
        .other ∉ log ∧ torn (pendingAt g m w i chunk) = false ∧
          (m.channel = "" ∨ (g.prepareText m.channel chunk).1.length = 1))

variable {chunk : String}

section

variable {done : List Effect} {log : List Line} (hcrash : Crashed g printer m w done log)

include hcrash

/-- What a part of the send has done, with the chunks counted from zero. -/
theorem Crashed.part :
    PartSpec m (idemOf m w.uuid) (chunksOf g m).length w.answers 0 (chunksOf g m) done :=
  send_partSpec hcrash.accepts hcrash.cut

variable {i : ℕ}

omit hcrash in
theorem related_keyAt (hi : i < (chunksOf g m).length) :
    Related (idemOf m w.uuid) (chunksOf g m).length (keyAt g m w i) := ⟨i, hi, .inl rfl⟩

theorem Crashed.begun (he : e ∈ done) {j : ℕ} (hj : (chunksOf g m)[j]? = some chunk)
    (hk : e.key? = some (keyAt g m w j)) :
    .outbox (pendingAt g m w j chunk) ∈ done ∧ ∀ i < j, Settled (keyAt g m w i) done := by
  have hbe := hcrash.part.begun e he j chunk hj
  simp only [zero_add] at hbe
  exact hbe hk

theorem Crashed.open_ (hre : .outbox record ∈ done) {j : ℕ}
    (hj : (chunksOf g m)[j]? = some chunk) (hk : keyOf? record = some (keyAt g m w j))
    (hop : ¬ Settled (keyAt g m w j) done) : record = pendingAt g m w j chunk := by
  have hon := hcrash.part.open_ record hre j chunk hj
  simp only [zero_add] at hon
  exact hon hk hop

omit hcrash in
theorem keyOf?_pendingAt (i : ℕ) (chunk : String) :
    keyOf? (pendingAt g m w i chunk) = some (keyAt g m w i) :=
  keyOf?_pendingOf (idemOf_ne_empty m w.uuid) i chunk

/-- What the log shows under a key of the message was written by the send. -/
theorem Crashed.mem_done (hre : records? log = some records)
    (hrl : Related (idemOf m w.uuid) (chunksOf g m).length k)
    (hrc : record ∈ records) (hk : keyOf? record = some k) :
    .outbox record ∈ done ∧ torn record = false := by
  have hli := (records?_eq_some hre record).mp hrc
  exact printer.outbox_of_mem_written ((hcrash.own k hrl (.object record) hk).mp hli) hk

/-- Only the entry of a chunk is replayed under the key of the chunk. -/
theorem Crashed.replayed
    (he : e ∈ g.replayPendingOutbox log worlds) (hi : i < (chunksOf g m).length)
    (hk : e.key? = some (keyAt g m w i)) : ∃ records entry place, records? log = some records ∧
      entry ∈ outboxReplayable records ∧ keyOf? entry = some (keyAt g m w i) ∧
      e ∈ g.replayEntry entry (worlds place) := by
  cases hre : records? log with
  | none =>
    rw [replayPendingOutbox, hre] at he
    cases he
  | some records =>
    obtain ⟨entry, place, hpl, he⟩ := (mem_replayPendingOutbox hre).mp he
    have hen := mem_of_getElem? hpl
    refine ⟨records, entry, place, rfl, hen, ?_, he⟩
    obtain ⟨key, hkey, _, hrc, hsa⟩ := mem_log_of_mem_outboxReplayable hen
    rcases replayEntry_keys hkey he hk with hown | ⟨j, hpi⟩
    · rw [hkey, hown]
    -- then the entry would be one of the message's, and pieces of those have other keys
    have hrl : Related (idemOf m w.uuid) (chunksOf g m).length key := ⟨i, hi, .inr ⟨j, hpi.symm⟩⟩
    obtain ⟨hdo, -⟩ := hcrash.mem_done hre hrl hrc hsa
    obtain ⟨_, -, -, hch⟩ := hcrash.part.keys _ hdo key hsa
    rw [hch] at hpi
    exact absurd hpi.symm (chunkKey_piece_ne _ _ _ _ _)

/-- The entry of a chunk that was not settled before the crash is its pending record. -/
theorem Crashed.entry (hre : records? log = some records)
    (hi : (chunksOf g m)[i]? = some chunk) (hop : ¬ Settled (keyAt g m w i) done) {entry : Record}
    (hen : entry ∈ outboxReplayable records) (hkey : keyOf? entry = some (keyAt g m w i)) :
    torn (pendingAt g m w i chunk) = false ∧ entry.get "channel" = some (.str m.channel) ∧
      entry.get "text" = some (.str chunk) := by
  have hrl : Related (idemOf m w.uuid) (chunksOf g m).length (keyAt g m w i) :=
    related_keyAt (getElem?_eq_some_iff.mp hi).1
  obtain ⟨_, hla, -, rfl⟩ := eq_merged_of_mem_outboxReplayable hen hkey
  have hst := mem_of_latest hla
  obtain ⟨hdo, hto⟩ := hcrash.mem_done hre hrl hst (keyOf?_latest hla)
  obtain rfl := hcrash.open_ hdo hi (keyOf?_latest hla) hop
  obtain ⟨_, hfd⟩ := exists_payload hst (keyOf?_latest hla) rfl
  obtain ⟨hmem, hfo, -⟩ := mem_of_payload hfd
  obtain ⟨hfn, -⟩ := hcrash.mem_done hre hrl hmem hfo
  obtain rfl := hcrash.open_ hfn hi hfo hop
  refine ⟨hto, get_merged_of_status (by decide) rfl, ?_⟩
  rw [hfd, get_merged_text]
  rfl

theorem recovered_of_resumable (hrs : Resumable g m w done log) (worlds : ℕ → SendWorld) :
    Recovered g m w (done ++ g.replayPendingOutbox log worlds) := by
  intro i hi
  -- the last chunk, and those before it
  obtain ⟨last, hls⟩ : ∃ last, last + 1 = (chunksOf g m).length :=
    ⟨(chunksOf g m).length - 1, by omega⟩
  obtain ⟨chunk, hget⟩ : ∃ chunk, (chunksOf g m)[last]? = some chunk :=
    ⟨_, getElem?_eq_getElem (by omega)⟩
  obtain ⟨hpe, hca⟩ := hrs last chunk hls hget
  rcases (show i ≤ last by omega).lt_or_eq with hbe | rfl
  · have hse := (hcrash.begun hpe hget (keyOf?_pendingAt last chunk)).2 i hbe
    exact hse.mono (subset_append_left _ _)
  by_cases hop : Settled (keyAt g m w i) done
  · exact hop.mono (subset_append_left _ _)
  obtain ⟨hot, hto, hpi⟩ := hca.resolve_left hop
  obtain ⟨records, hre⟩ := Option.ne_none_iff_exists'.mp fun hno => hot (records?_eq_none.mp hno)
  have hli := (hcrash.own _ (related_keyAt hi) (.object (pendingAt g m w i chunk))
    (keyOf?_pendingAt i chunk)).mpr (printer.mem_written_of_whole hpe hto)
  have hrc := (records?_eq_some hre _).mpr hli
  obtain ⟨_, hla⟩ := exists_latest hrc (keyOf?_pendingAt i chunk)
  obtain ⟨hdo, -⟩ := hcrash.mem_done hre (related_keyAt hi) (mem_of_latest hla) (keyOf?_latest hla)
  obtain rfl := hcrash.open_ hdo hget (keyOf?_latest hla) hop
  have hen := mem_outboxReplayable.mpr ⟨_, _, hla, rfl, rfl⟩
  have hkey := keyOf?_merged (p := payload (keyAt g m w i) records) (keyOf?_latest hla)
  obtain ⟨-, hch, hte⟩ := hcrash.entry hre hget hop hen hkey
  obtain ⟨place, hpl⟩ := mem_iff_getElem?.mp hen
  have hse : Settled (keyAt g m w i) (g.replayEntry _ (worlds place)) :=
    replayEntry_settled hkey hch hte hcrash.accepts hpi
  refine hse.mono fun e he => mem_append_right _ ?_
  exact (mem_replayPendingOutbox hre).mpr ⟨_, place, hpl, he⟩

/-- A chunk that is settled in the end was on record before the crash. -/
theorem Crashed.recorded (hget : (chunksOf g m)[i]? = some chunk)
    (hse : Settled (keyAt g m w i) (done ++ g.replayPendingOutbox log worlds)) :
    .outbox (pendingAt g m w i chunk) ∈ done := by
  have hi : i < (chunksOf g m).length := (getElem?_eq_some_iff.mp hget).1
  obtain ⟨e, he, hst⟩ := hse
  have hk := hst.key?_eq
  rcases mem_append.mp he with he | he
  · exact (hcrash.begun he hget hk).1
  obtain ⟨_, _, _, hre, hen, hkey, he⟩ := hcrash.replayed he hi hk
  obtain ⟨_, hla, -, -⟩ := eq_merged_of_mem_outboxReplayable hen hkey
  obtain ⟨hdo, -⟩ := hcrash.mem_done hre (related_keyAt hi) (mem_of_latest hla) (keyOf?_latest hla)
  exact (hcrash.begun hdo hget (keyOf?_latest hla)).1

theorem resumable_of_recovered
    (hrc : ∀ worlds, Recovered g m w (done ++ g.replayPendingOutbox log worlds)) :
    Resumable g m w done log := by
  intro i _ _ hget
  have hi : i < (chunksOf g m).length := by omega
  -- a channel that takes everything shows what the replay does not send
  have hse := hrc (fun _ => obligingWorld) i hi
  refine ⟨hcrash.recorded hget hse, ?_⟩
  by_cases hop : Settled (keyAt g m w i) done
  · exact .inl hop
  obtain ⟨e, he, hst⟩ := hse
  have hk := hst.key?_eq
  have he := (mem_append.mp he).resolve_left fun he => hop ⟨e, he, hst⟩
  obtain ⟨records, entry, _, hre, hen, hkey, he⟩ := hcrash.replayed he hi hk
  have hot : .other ∉ log := fun hmem => by
    rw [records?_eq_none.mpr hmem] at hre
    cases hre
  obtain ⟨hto, hch, hte⟩ := hcrash.entry hre hget hop hen hkey
  refine .inr ⟨hot, hto, ?_⟩
  by_contra hne
  obtain ⟨hna, hpi⟩ := not_or.mp hne
  obtain ⟨j, hpc⟩ := replayEntry_obliging_keys hkey hch hte hcrash.accepts hna hpi he hk
  exact chunkKey_piece_ne _ _ _ _ _ hpc.symm

end

/-- Whatever the channel does during the replay, every chunk is handed to it or comes to a
terminal record, exactly when the send can be resumed. -/
theorem recovered_iff (g : OutboundDispatcher) (printer : Printer) (m : OutboundMessage)
    (w : SendWorld) (done : List Effect) (log : List Line)
    (hcrash : Crashed g printer m w done log) :
    (∀ worlds, Recovered g m w (done ++ g.replayPendingOutbox log worlds)) ↔
      Resumable g m w done log :=
  ⟨resumable_of_recovered hcrash, recovered_of_resumable hcrash⟩

/-! ## Crashes in the first chunk and after it -/

section

/-- The effects for the first chunk, up to its last record. -/
def firstChunk (g : OutboundDispatcher) (m : OutboundMessage) (w : SendWorld) (chunk : String) :
    List Effect :=
  .outbox (pendingAt g m w 0 chunk) :: (g.sendChunkWithRetry m (keyAt g m w 0) chunk
    (g.prepareText m.channel m.text).2 (w.answers 0)).1

variable {rest : List String}

theorem firstChunk_isPrefix (hac : Accepts g m.channel)
    (hcs : chunksOf g m = chunk :: rest) : firstChunk g m w chunk <+: (g.send m w).1 := by
  rw [send_eq_sendChunks hac, firstChunk, pendingAt, keyAt, hcs]
  obtain ⟨r, _, hsh, -⟩ := sendChunks_cons 0 .successful rest
  rw [hsh]
  exact cons_prefix_cons.mpr ⟨rfl, prefix_append _ _⟩

/-- Nothing of the second chunk is left by a crash between the first two. -/
theorem not_recovered_after_first {log : List Line} {next : String}
    (hcs : chunksOf g m = chunk :: next :: rest)
    (hcrash : Crashed g printer m w (firstChunk g m w chunk) log) (worlds : ℕ → SendWorld) :
    ¬ Recovered g m w (firstChunk g m w chunk ++ g.replayPendingOutbox log worlds) := by
  intro hrc
  have hget : (chunksOf g m)[1]? = some next := by rw [hcs]; rfl
  have hmem := hcrash.recorded hget (hrc 1 (getElem?_eq_some_iff.mp hget).1)
  have hab : About (keyAt g m w 0) (firstChunk g m w chunk) :=
    about_chunk (sendChunkWithRetry_spec (chunkKey_ne_empty (idemOf_ne_empty m w.uuid) _ 0)).about
  have hsa := hab _ hmem _ (keyOf?_pendingAt 1 next)
  have hma : (chunksOf g m).length ≠ 1 := by simp [hcs]
  exact absurd (chunkKey_inj hma hsa) (by decide)

end

def plainDispatcher : OutboundDispatcher where
  registered _ := true
  gateError _ := none
  supportsMarkdown _ := true
  maxAttempts _ := 5
  addressesRecipient _ := false
  markdownFallback := true
  longMessageThresholdChunks := 4
  stripMarkdown := id
  showJson _ := ""

/-- Nothing of a torn record can be parsed. -/
def strictPrinter : Printer where
  lines record := if torn record then [] else [.object record]
  lines_whole record h := by simp [h]
  lines_torn record h := by simp [h]

def shortMessage : OutboundMessage :=
  { text := "hi", channel := "ops", idempotencyKey := some "k" }

def shortPending : Record := pendingAt plainDispatcher shortMessage obligingWorld 0 "hi"

/-- A crash right after the record of the only chunk. -/
theorem short_recovered :
    Crashed plainDispatcher strictPrinter shortMessage obligingWorld [.outbox shortPending]
      [.object shortPending] ∧ ∀ worlds, Recovered plainDispatcher shortMessage obligingWorld
      ([.outbox shortPending] ++
        plainDispatcher.replayPendingOutbox [.object shortPending] worlds) := by
  have hcs : chunksOf plainDispatcher shortMessage = ["hi"] := by decide
  have hto : torn shortPending = false := by decide
  have hcrash : Crashed plainDispatcher strictPrinter shortMessage obligingWorld
      [.outbox shortPending] [.object shortPending] := by
    refine ⟨⟨rfl, rfl⟩, ?_, ?_⟩
    · refine trans ?_ (firstChunk_isPrefix ⟨rfl, rfl⟩ hcs)
      exact cons_prefix_cons.mpr ⟨rfl, nil_prefix⟩
    · intro k _ _ _
      simp [Printer.written, strictPrinter, hto]
  refine ⟨hcrash, (recovered_iff _ _ _ _ _ _ hcrash).mpr ?_⟩
  intro i chunk hls hget
  rw [hcs] at hls hget
  obtain rfl : i = 0 := by simpa using hls
  obtain rfl : "hi" = chunk := by simpa using hget
  exact ⟨mem_singleton_self _, .inr ⟨by simp, hto, .inr (by decide)⟩⟩

theorem rfind_replicate {c a : Char} (hne : a ≠ c) (n stop : ℕ) :
    rfind c (replicate n a) stop = none := by
  simp [rfind, hne]

/-- A text without blanks is cut at the chunk size. -/
theorem splitText_unbroken {n : ℕ} (hn : 0 < n) :
    splitText (String.ofList (replicate (n + 1) 'a')) n =
      [String.ofList (replicate n 'a'), "a"] := by
  have hcut : cutAt n (replicate (n + 1) 'a') = n := by
    simp [cutAt, rfind_replicate]
  have hst : ∀ k, (replicate k 'a').dropWhile Text.isSpace = replicate k 'a' := by
    intro k
    cases k with
    | zero => rfl
    | succ => rw [replicate_succ, dropWhile_cons_of_neg (by decide)]
  have hls : splitLoop n (n + 1) (replicate 1 'a') = [['a']] := by
    rw [splitLoop]
    simp [show 1 ≤ n from hn]
  have hlo : splitLoop n (n + 2) (replicate (n + 1) 'a') = [replicate n 'a', ['a']] := by
    rw [splitLoop]
    simp only [hcut, take_replicate,
      drop_replicate, reverse_replicate, hst, Nat.add_sub_cancel_left, hls]
    simp
  have hln : ¬ n + 1 ≤ n := by omega
  have hfu : replicate n 'a' ≠ [] := by
    simpa using hn.ne'
  dsimp only [splitText]
  rw [String.toList_ofList, length_replicate, if_neg hln, hlo]
  have hke : [replicate n 'a', ['a']].filter (! ·.isEmpty) = [replicate n 'a', ['a']] := by
    refine filter_eq_self.mpr fun piece hpi => ?_
    rcases mem_pair.mp hpi with rfl | rfl
    · simpa using hfu
    · rfl
  rw [hke]
  rfl

def longMessage : OutboundMessage :=
  { text := String.ofList (replicate 4001 'a'), channel := "ops",
    idempotencyKey := some "k" }

/-- Two chunks; the process ends after the first is delivered. -/
theorem long_not_recovered : let chunk := String.ofList (replicate 4000 'a')
    let done := firstChunk plainDispatcher longMessage obligingWorld chunk
    chunksOf plainDispatcher longMessage = [chunk, "a"] ∧
    Crashed plainDispatcher strictPrinter longMessage obligingWorld done
      (strictPrinter.written done) ∧
    ∀ worlds, ¬ Recovered plainDispatcher longMessage obligingWorld
      (done ++ plainDispatcher.replayPendingOutbox (strictPrinter.written done) worlds) := by
  intro chunk done
  have hcs : chunksOf plainDispatcher longMessage = [chunk, "a"] := by
    have hsp : splitText longMessage.text defaultChunkSize = [chunk, "a"] :=
      splitText_unbroken (by decide)
    have hpr : ∀ m, chunksOf plainDispatcher m = maybeTruncateWithLiveview m.text 4 := fun _ => rfl
    rw [hpr, maybeTruncateWithLiveview, hsp]
    rfl
  have hcrash : Crashed plainDispatcher strictPrinter longMessage obligingWorld done
      (strictPrinter.written done) :=
    ⟨⟨rfl, rfl⟩, firstChunk_isPrefix ⟨rfl, rfl⟩ hcs, fun _ _ _ _ => .rfl⟩
  exact ⟨hcs, hcrash, not_recovered_after_first hcs hcrash⟩

end Orchestratord.Gateway
