import Orchestratord.Gateway.Outbound

/-! # What a send writes

The effects for a chunk carry the key of the chunk. Once the loop for a chunk is over, the chunk
has been handed to the channel or has a terminal record; and a later chunk begins only then. -/

namespace Orchestratord.Gateway

open Foundation
open List hiding getElem?_eq_some_iff

/-- The chunk that an effect is about. -/
def Effect.key? : Effect → Option String
  | .outbox record => keyOf? record
  | .hand key _ _ _ => some key
  | .deadLetter _ | .audit _ _ => none

/-- The chunk is handed to the channel, or gets a terminal record. -/
def Effect.Settles (key : String) : Effect → Prop
  | .outbox record => keyOf? record = some key ∧ isTerminal record = true
  | .hand handed _ _ _ => handed = key
  | .deadLetter _ | .audit _ _ => False

def Settled (key : String) (effects : List Effect) : Prop := ∃ e ∈ effects, e.Settles key

variable {record : Record} {key : String} {e : Effect}

theorem Effect.Settles.key?_eq (h : e.Settles key) : e.key? = some key := by
  cases e with
  | outbox => exact h.1
  | hand => exact congrArg some h
  | deadLetter | audit => exact h.elim

variable {a b : List Effect}

theorem Settled.mono (h : Settled key a) (hsub : a ⊆ b) : Settled key b := by
  obtain ⟨e, he, hse⟩ := h
  exact ⟨e, hsub he, hse⟩

/-- Every effect is about this chunk, or about none. -/
def About (key : String) (effects : List Effect) : Prop :=
  ∀ e ∈ effects, ∀ k, e.key? = some k → k = key

theorem About.append (ha : About key a) (hb : About key b) : About key (a ++ b) := by
  intro e he
  rcases mem_append.mp he with he | he
  · exact ha e he
  · exact hb e he

theorem about_nil (key : String) : About key [] := by
  rintro e ⟨⟩

theorem About.cons {rest : List Effect} (he : ∀ k, e.key? = some k → k = key)
    (hre : About key rest) : About key (e :: rest) := by
  intro e' he'
  rcases mem_cons.mp he' with rfl | he'
  · exact he
  · exact hre e' he'

/-! ## The fields of the records -/

/-- The fields of a status record that recovery reads. -/
structure StatusOf (key channel : String) (record : Record) : Prop where
  key : record.get "idempotency_key" = some (.str key)
  channel : record.get "channel" = some (.str channel)
  text : record.get "text" = none

theorem keyOf?_of_get (h : record.get "idempotency_key" = some (.str key)) :
    keyOf? record = if key = "" then none else some key := by
  unfold keyOf?
  rw [h]

theorem eq_of_keyOf? {k : String} (h : record.get "idempotency_key" = some (.str key))
    (hk : keyOf? record = some k) : k = key := by
  rw [keyOf?_of_get h] at hk
  split at hk
  · cases hk
  · exact (Option.some.inj hk).symm

theorem statusOf_dead (key channel error : String) (now : ℚ) :
    StatusOf key channel (deadRecord key channel error now) := ⟨rfl, rfl, rfl⟩

variable {channel : String}

theorem settles_of_terminal (hkey : key ≠ "")
    (hst : StatusOf key channel record) (hte : isTerminal record = true) :
    (Effect.outbox record).Settles key :=
  ⟨by rw [keyOf?_of_get hst.key, if_neg hkey], hte⟩

/-! ## One attempt -/

/-- Which records a list of effects may append for a chunk. -/
def WritesStatus (key channel : String) (effects : List Effect) : Prop :=
  ∀ record, .outbox record ∈ effects → StatusOf key channel record

namespace OutboundDispatcher

variable {g : OutboundDispatcher} {m : OutboundMessage} {chunk : String} {stripped : Bool}
  {answers : ChunkAnswers}

/-- What one call to the channel can do: it appends no record, and unless it is refused
beforehand the chunk is handed over. -/
structure CallSpec (key : String) (result : List Effect × Ending) : Prop where
  about : About key result.1
  silent : ∀ record, .outbox record ∉ result.1
  raised : ∀ error, result.2 = .raised error → Settled key result.1
  returned : ∀ r, result.2 = .returned r → r.ok = true ∨ r.retryable = true → Settled key result.1

theorem sendAuthorized_spec (payload : ChannelMessage) (answer : Answer) :
    CallSpec key (g.sendAuthorized m key payload answer) := by
  cases answer with
  | unavailable =>
    refine ⟨about_nil key, fun _ h => (not_mem_nil h).elim, ?_, ?_⟩
    · rintro _ ⟨⟩
    rintro _ h
    cases h
    rintro (hok | hre)
    · cases hok
    · cases hre
  | unauthorized =>
    refine ⟨.cons (fun _ h => ?_) (about_nil key), ?_, ?_, ?_⟩
    · cases h
    · intro _ h
      cases mem_singleton.mp h
    · rintro _ ⟨⟩
    rintro _ h
    cases h
    rintro (hok | hre)
    · cases hok
    · cases hre
  | returns | raises =>
    have hse : Settled key [sendAuthorized.call g m key payload] := ⟨_, mem_singleton_self _, rfl⟩
    refine ⟨.cons (fun _ h => (Option.some.inj h).symm) (about_nil key), ?_,
      fun _ _ => hse, fun _ _ _ => hse⟩
    intro _ h
    cases mem_singleton.mp h

theorem CallSpec.append {first : List Effect} {second : List Effect × Ending}
    (hab : About key first) (hsi : ∀ record, .outbox record ∉ first)
    (h : CallSpec key second) : CallSpec key (first ++ second.1, second.2) where
  about := hab.append h.about
  silent record hmem := (mem_append.mp hmem).elim (hsi record) (h.silent record)
  raised error hend := (h.raised error hend).mono (subset_append_right _ _)
  returned r hend hgo := (h.returned r hend hgo).mono (subset_append_right _ _)

theorem attemptSend_spec (attempt : ℕ) (payload : ChannelMessage) :
    CallSpec key ((g.attemptSend m key chunk stripped answers attempt payload).1,
      (g.attemptSend m key chunk stripped answers attempt payload).2.1) := by
  have hfi : CallSpec key (g.sendAuthorized m key payload (answers.answer attempt)) :=
    sendAuthorized_spec _ _
  unfold attemptSend
  generalize g.sendAuthorized m key payload (answers.answer attempt) = call at hfi ⊢
  obtain ⟨_, ending⟩ := call
  cases ending with
  | raised => exact hfi
  | returned =>
    dsimp only
    split
    · exact .append hfi.about hfi.silent (sendAuthorized_spec _ _)
    · exact hfi

/-! ## The retry loop -/

/-- What the retry loop can do for a chunk. After any part of it that has appended a record, the
chunk is settled. -/
structure LoopSpec (key channel : String) (effects : List Effect) : Prop where
  about : About key effects
  status : WritesStatus key channel effects
  settled : Settled key effects
  recorded : ∀ part, part <+: effects → ∀ record, .outbox record ∈ part → Settled key part

variable {effects rest : List Effect} {part : List Effect}

/-- The effects before a record do not append one. -/
theorem recorded_of_silent (hsi : ∀ record, .outbox record ∉ effects)
    (hpa : part <+: effects ++ rest) (hre : .outbox record ∈ part) :
    ∃ later, part = effects ++ later ∧ later <+: rest := by
  rcases prefix_or_prefix_of_prefix hpa (prefix_append effects rest) with hin | hout
  · exact absurd (hin.subset hre) (hsi record)
  · obtain ⟨later, rfl⟩ := hout
    exact ⟨later, rfl, (prefix_append_right_inj effects).mp hpa⟩

/-- A call, its record, and what follows. -/
theorem LoopSpec.of_record (hab : About key effects)
    (hsi : ∀ record, .outbox record ∉ effects) (hst : StatusOf key channel record)
    (hse : Settled key (effects ++ [.outbox record])) (hrs : About key rest)
    (hre : WritesStatus key channel rest) :
    LoopSpec key channel (effects ++ .outbox record :: rest) := by
  refine ⟨hab.append (.cons (fun k => eq_of_keyOf? hst.key) hrs), ?_, ?_, ?_⟩
  · intro r hr
    rcases mem_append.mp hr with hr | hr
    · exact absurd hr (hsi r)
    rcases mem_cons.mp hr with heq | hr
    · cases heq
      exact hst
    · exact hre r hr
  · refine hse.mono fun e he => ?_
    rw [append_cons]
    exact mem_append_left rest he
  · intro part hpa r hr
    obtain ⟨later, rfl, hla⟩ := recorded_of_silent hsi hpa hr
    -- a part with a record after the silent effects begins with this one
    rcases later with _ | ⟨e, later⟩
    · exact absurd (by simpa using hr) (hsi r)
    obtain rfl : e = .outbox record := (cons_prefix_cons.mp hla).1
    refine hse.mono fun e he => ?_
    rw [append_cons]
    exact mem_append_left later he

theorem LoopSpec.of_terminal (hkey : key ≠ "") (hab : About key effects)
    (hsi : ∀ record, .outbox record ∉ effects) (hst : StatusOf key channel record)
    (hte : isTerminal record = true) (hre : ∀ e ∈ rest, ∃ r, e = .deadLetter r) :
    LoopSpec key channel (effects ++ .outbox record :: rest) := by
  refine .of_record hab hsi hst ⟨_, by simp, settles_of_terminal hkey hst hte⟩ ?_ ?_
  · intro e he k hk
    obtain ⟨r, rfl⟩ := hre e he
    cases hk
  · intro r hr
    obtain ⟨_, ⟨⟩⟩ := hre _ hr

/-- One round, given what the rounds after it do. -/
theorem retryLoop_round (hkey : key ≠ "") (left attempt : ℕ) (payload : ChannelMessage)
    (hrs : ∀ fewer payload', left = fewer + 1 → LoopSpec key m.channel
      (g.retryLoop m key chunk stripped answers fewer (attempt + 1) payload').1) :
    LoopSpec key m.channel (g.retryLoop m key chunk stripped answers left attempt payload).1 := by
  have hsp : CallSpec key ((g.attemptSend m key chunk stripped answers attempt payload).1,
    (g.attemptSend m key chunk stripped answers attempt payload).2.1) := attemptSend_spec _ _
  unfold retryLoop
  generalize g.attemptSend m key chunk stripped answers attempt payload = tried at hsp ⊢
  obtain ⟨effects, ending, payload'⟩ := tried
  cases ending with
  | raised error =>
    refine ⟨hsp.about, fun r hr => absurd hr (hsp.silent r), hsp.raised error rfl, ?_⟩
    intro _ hpa r hr
    exact absurd (hpa.subset hr) (hsp.silent r)
  | returned r =>
    have hfa : ∀ rest, (∀ e ∈ rest, ∃ r, e = .deadLetter r) → LoopSpec key m.channel (effects ++
          .outbox (failedRecord key m.channel r attempt (answers.clock attempt)) :: rest) :=
      fun _ => .of_terminal hkey hsp.about hsp.silent ⟨rfl, rfl, rfl⟩ rfl
    dsimp only
    split
    · refine .of_terminal hkey hsp.about hsp.silent ⟨rfl, rfl, rfl⟩ rfl ?_
      rintro e ⟨⟩
    split
    · apply hfa []
      rintro e ⟨⟩
    have hgi := hfa [.deadLetter
      (deadLetterRecord key m.channel m.target r attempt (answers.clock attempt))] (by simp)
    split
    case isTrue hre =>
      rcases left with _ | fewer
      · exact hgi
      have hse := hsp.returned r rfl (.inr hre)
      have hla := hrs fewer payload' rfl
      exact .of_record hsp.about hsp.silent ⟨rfl, rfl, rfl⟩
        (hse.mono (subset_append_left _ _)) hla.about hla.status
    · exact hgi

theorem retryLoop_spec (hkey : key ≠ "") (left attempt : ℕ) (payload : ChannelMessage) :
    LoopSpec key m.channel (g.retryLoop m key chunk stripped answers left attempt payload).1 := by
  induction left generalizing attempt payload with
  | zero =>
    refine retryLoop_round hkey 0 attempt payload fun fewer _ h => ?_
    cases h
  | succ left ih =>
    refine retryLoop_round hkey (left + 1) attempt payload fun fewer payload' h => ?_
    cases h
    exact ih (attempt + 1) payload'

/-! ## The chunk loop -/

section

variable {idem : String} {total : ℕ} {chunkAnswers : ℕ → ChunkAnswers}

/-- The record that opens the chunk at `index`. -/
def pendingOf (m : OutboundMessage) (idem : String) (total : ℕ) (chunkAnswers : ℕ → ChunkAnswers)
    (index : ℕ) (chunk : String) : Record :=
  pendingRecord m (chunkKey idem total index) chunk index total ((chunkAnswers index).clock 0)

theorem chunkKey_ne_empty (hid : idem ≠ "") (total index : ℕ) : chunkKey idem total index ≠ "" := by
  unfold chunkKey
  split
  · exact hid
  · intro h
    have hle := congrArg String.length h
    simp at hle

variable {i j : ℕ}

theorem chunkKey_inj (hto : total ≠ 1)
    (h : chunkKey idem total i = chunkKey idem total j) : i = j := by
  simp only [chunkKey, hto] at h
  have hre : Nat.repr i = Nat.repr j := (String.append_right_inj _).mp h
  have hdi : Nat.toDigits 10 i = Nat.toDigits 10 j := by
    rw [← Nat.toList_repr, ← Nat.toList_repr, hre]
  rw [← Nat.ofDigitChars_ten_toDigits (n := i), hdi, Nat.ofDigitChars_ten_toDigits]

/-- The key of a piece of a chunk is never that of a chunk. -/
theorem chunkKey_piece_ne (idem : String) (total i j k : ℕ) :
    chunkKey idem total i ++ "#" ++ toString j ≠ chunkKey idem total k := by
  intro h
  unfold chunkKey at h
  split at h
  · have hle := congrArg String.length h
    have hone : "#".length = 1 := by decide
    simp only [String.length_append] at hle
    omega
  · rw [String.append_assoc, String.append_assoc, String.append_right_inj] at h
    -- a number has no such sign in it
    have hmem : '#' ∈ (Nat.repr k).toList := by
      change Nat.repr i ++ ("#" ++ Nat.repr j) = Nat.repr k at h
      rw [← h]
      simp
    rw [Nat.toList_repr] at hmem
    exact absurd (Nat.isDigit_of_mem_toDigits (by decide) (by decide) hmem) (by decide)

/-- The first chunk, and a part of what comes after it. -/
theorem sendChunks_cons (index : ℕ) (last : ChannelSendResult) (rest : List String) : ∃ r later,
      (g.sendChunks m idem total stripped chunkAnswers index last (chunk :: rest)).1 =
        .outbox (pendingOf m idem total chunkAnswers index chunk) ::
          ((g.sendChunkWithRetry m (chunkKey idem total index) chunk stripped
            (chunkAnswers index)).1 ++ later) ∧
      later <+: (g.sendChunks m idem total stripped chunkAnswers (index + 1) r rest).1 := by
  simp only [sendChunks]
  generalize g.sendChunkWithRetry m (chunkKey idem total index) chunk stripped
    (chunkAnswers index) = sent
  obtain ⟨_, ending⟩ := sent
  cases ending with
  | raised => exact ⟨last, [], by simp [pendingOf], nil_prefix⟩
  | returned r =>
    dsimp only
    split
    · exact ⟨r, _, rfl, prefix_rfl⟩
    · exact ⟨last, [], by simp [pendingOf], nil_prefix⟩

variable {rest : List String} {index : ℕ} {last : ChannelSendResult}

/-- How far a part of the chunk loop has come: not into the first chunk, into it, or past it. -/
theorem sendChunks_prefix_cases (hpa : part <+:
      (g.sendChunks m idem total stripped chunkAnswers index last (chunk :: rest)).1) :
    let pending := .outbox (pendingOf m idem total chunkAnswers index chunk)
    let effects := (g.sendChunkWithRetry m (chunkKey idem total index) chunk stripped
      (chunkAnswers index)).1
    part = [] ∨ (∃ done, part = pending :: done ∧ done <+: effects) ∨
      ∃ r later, part = pending :: (effects ++ later) ∧
        later <+: (g.sendChunks m idem total stripped chunkAnswers (index + 1) r rest).1 := by
  intro _ effects
  obtain ⟨r, later, hsh, hla⟩ := sendChunks_cons index last rest
  rw [hsh] at hpa
  rcases part with _ | ⟨_, done⟩
  · exact .inl rfl
  obtain ⟨rfl, hdo⟩ := cons_prefix_cons.mp hpa
  rcases prefix_or_prefix_of_prefix hdo (prefix_append effects later) with hin | hout
  · exact .inr (.inl ⟨done, rfl, hin⟩)
  · obtain ⟨more, rfl⟩ := hout
    have hmo := (prefix_append_right_inj effects).mp hdo
    exact .inr (.inr ⟨r, more, rfl, hmo.trans hla⟩)

theorem sendChunkWithRetry_spec (hkey : key ≠ "") :
    LoopSpec key m.channel (g.sendChunkWithRetry m key chunk stripped answers).1 :=
  retryLoop_spec hkey _ _ _

/-- A send that ends has settled its first chunk. -/
theorem sendChunks_settles_first (hid : idem ≠ "") (index : ℕ) (last : ChannelSendResult)
    (rest : List String) : Settled (chunkKey idem total index)
      (g.sendChunks m idem total stripped chunkAnswers index last (chunk :: rest)).1 := by
  obtain ⟨r, _, hsh, -⟩ := sendChunks_cons index last rest
  rw [hsh]
  have hsp : LoopSpec (chunkKey idem total index) m.channel (g.sendChunkWithRetry m
      (chunkKey idem total index) chunk stripped (chunkAnswers index)).1 :=
    sendChunkWithRetry_spec (chunkKey_ne_empty hid total index)
  refine hsp.settled.mono fun e he => ?_
  exact mem_cons_of_mem _ (mem_append_left _ he)

/-- What a part of the chunk loop can have done, with the number of the first chunk. -/
structure PartSpec (m : OutboundMessage) (idem : String) (total : ℕ)
    (chunkAnswers : ℕ → ChunkAnswers) (index : ℕ) (chunks : List String) (part : List Effect) :
    Prop where
  /-- Every effect is about one of the chunks. -/
  keys : ∀ e ∈ part, ∀ k, e.key? = some k →
    ∃ i chunk, chunks[i]? = some chunk ∧ k = chunkKey idem total (index + i)
  /-- A chunk that has begun is on record, and all before it are settled. -/
  begun : ∀ e ∈ part, ∀ j chunk, chunks[j]? = some chunk →
    e.key? = some (chunkKey idem total (index + j)) →
    .outbox (pendingOf m idem total chunkAnswers (index + j) chunk) ∈ part ∧
      ∀ i < j, Settled (chunkKey idem total (index + i)) part
  /-- The records are the pending ones, and others that recovery reads the status from. -/
  records : ∀ record, .outbox record ∈ part → ∃ i chunk, chunks[i]? = some chunk ∧
    (record = pendingOf m idem total chunkAnswers (index + i) chunk ∨
      StatusOf (chunkKey idem total (index + i)) m.channel record)
  /-- A chunk that is not settled has its pending record only. -/
  open_ : ∀ record, .outbox record ∈ part → ∀ j chunk, chunks[j]? = some chunk →
    keyOf? record = some (chunkKey idem total (index + j)) →
    ¬ Settled (chunkKey idem total (index + j)) part →
    record = pendingOf m idem total chunkAnswers (index + j) chunk

theorem keyOf?_pendingOf (hid : idem ≠ "") (index : ℕ) (chunk : String) :
    keyOf? (pendingOf m idem total chunkAnswers index chunk) =
      some (chunkKey idem total index) := by
  have hget : (pendingOf m idem total chunkAnswers index chunk).get "idempotency_key" =
      some (.str (chunkKey idem total index)) := rfl
  rw [keyOf?_of_get hget, if_neg (chunkKey_ne_empty hid _ _)]

theorem PartSpec.nil (index : ℕ) (chunks : List String) :
    PartSpec m idem total chunkAnswers index chunks [] :=
  ⟨by simp, by simp, by simp, by simp⟩

variable {chunks : List String}

theorem chunkKey_inj_of_getElem? (hone : total = 1 → chunks.length ≤ 1)
    {a b : String} (hi : chunks[i]? = some a) (hj : chunks[j]? = some b)
    (h : chunkKey idem total (index + i) = chunkKey idem total (index + j)) : i = j := by
  by_cases hto : total = 1
  · obtain ⟨hi, -⟩ := getElem?_eq_some_iff.mp hi
    obtain ⟨hj, -⟩ := getElem?_eq_some_iff.mp hj
    omega
  · have := chunkKey_inj hto h
    omega

/-- The pending record and the effects after it are about their own chunk. -/
theorem about_chunk (hab : About (chunkKey idem total index) effects) :
    About (chunkKey idem total index)
      (.outbox (pendingOf m idem total chunkAnswers index chunk) :: effects) := by
  have hget : (pendingOf m idem total chunkAnswers index chunk).get "idempotency_key" =
      some (.str (chunkKey idem total index)) := rfl
  exact .cons (fun _ hk => eq_of_keyOf? hget hk) hab

/-- A part that has come into the first chunk, and past it only if it is settled. -/
theorem PartSpec.cons (hone : total = 1 → (chunk :: rest).length ≤ 1) {later : List Effect}
    (hab : About (chunkKey idem total index) effects)
    (hst : WritesStatus (chunkKey idem total index) m.channel effects)
    (hrc : ∀ record, .outbox record ∈ effects → Settled (chunkKey idem total index) effects)
    (hpa : later ≠ [] → Settled (chunkKey idem total index) effects)
    (hla : PartSpec m idem total chunkAnswers (index + 1) rest later) :
    PartSpec m idem total chunkAnswers index (chunk :: rest)
      (.outbox (pendingOf m idem total chunkAnswers index chunk) :: (effects ++ later)) := by
  -- which chunk an effect is about says in which of the two halves it is
  have hfi : ∀ e ∈ .outbox (pendingOf m idem total chunkAnswers index chunk) :: effects,
      ∀ j other, (chunk :: rest)[j]? = some other →
      e.key? = some (chunkKey idem total (index + j)) → j = 0 := by
    intro e he j _ hj hk
    exact chunkKey_inj_of_getElem? hone hj rfl (about_chunk hab e he _ hk)
  have hsc : ∀ e ∈ later, ∀ j other, (chunk :: rest)[j]? = some other →
      e.key? = some (chunkKey idem total (index + j)) → ∃ i, j = i + 1 := by
    intro e he j _ hj hk
    obtain ⟨i, c, hi, hsa⟩ := hla.keys e he _ hk
    rw [add_right_comm] at hsa
    exact ⟨i, chunkKey_inj_of_getElem? hone hj (by simpa using hi) hsa⟩
  have hsh : ∀ i, index + (i + 1) = index + 1 + i := fun i => by omega
  rw [← cons_append]
  generalize hpe : Effect.outbox (pendingOf m idem total chunkAnswers index chunk) = pending
    at hfi ⊢
  have hse : Settled (chunkKey idem total (index + 0)) effects →
      Settled (chunkKey idem total (index + 0)) (pending :: effects ++ later) :=
    fun h => h.mono fun e he => by simp [he]
  have hsub : later ⊆ pending :: effects ++ later := subset_append_right _ _
  refine ⟨?_, ?_, ?_, ?_⟩
  · intro e he k hk
    rcases mem_append.mp he with he | he
    · exact ⟨0, chunk, rfl, about_chunk hab e (hpe ▸ he) k hk⟩
    · obtain ⟨i, c, hi, hsa⟩ := hla.keys e he k hk
      exact ⟨i + 1, c, by simpa using hi, by rw [hsh]; exact hsa⟩
  · intro e he j other hj hk
    rcases mem_append.mp he with he | he
    · obtain rfl := hfi e he j other hj hk
      obtain rfl : chunk = other := Option.some.inj hj
      exact ⟨hpe ▸ mem_cons_self, fun i hi => absurd hi (Nat.not_lt_zero i)⟩
    · obtain ⟨j, rfl⟩ := hsc e he j other hj hk
      rw [hsh] at hk ⊢
      obtain ⟨hbg, hbe⟩ := hla.begun e he j other (by simpa using hj) hk
      refine ⟨hsub hbg, fun i hi => ?_⟩
      cases i with
      | zero => exact hse (hpa (ne_nil_of_mem he))
      | succ i =>
        rw [hsh]
        exact (hbe i (by omega)).mono hsub
  · intro record hre
    rcases mem_append.mp hre with hre | hre
    · refine ⟨0, chunk, rfl, ?_⟩
      rcases mem_cons.mp hre with heq | hre
      · cases hpe.trans heq.symm
        exact .inl rfl
      · exact .inr (hst record hre)
    · obtain ⟨i, c, hi, hki⟩ := hla.records record hre
      exact ⟨i + 1, c, by simpa using hi, by rw [hsh]; exact hki⟩
  · intro record hre j other hj hk hop
    rcases mem_append.mp hre with hre | hre
    · obtain rfl := hfi _ hre j other hj hk
      obtain rfl : chunk = other := Option.some.inj hj
      rcases mem_cons.mp hre with heq | hre
      · cases hpe.trans heq.symm
        rfl
      · exact absurd (hse (hrc record hre)) hop
    · obtain ⟨j, rfl⟩ := hsc _ hre j other hj hk
      rw [hsh] at hk hop ⊢
      exact hla.open_ record hre j other (by simpa using hj) hk fun hset => hop (hset.mono hsub)

/-- Every part of the chunk loop. -/
theorem sendChunks_partSpec (hid : idem ≠ "") (hone : total = 1 → chunks.length ≤ 1)
    (hpa : part <+: (g.sendChunks m idem total stripped chunkAnswers index last chunks).1) :
    PartSpec m idem total chunkAnswers index chunks part := by
  induction chunks generalizing index last part with
  | nil =>
    obtain rfl : part = [] := prefix_nil.mp hpa
    exact .nil index []
  | cons chunk rest ih =>
    have hsp : LoopSpec (chunkKey idem total index) m.channel (g.sendChunkWithRetry m
        (chunkKey idem total index) chunk stripped (chunkAnswers index)).1 :=
      sendChunkWithRetry_spec (chunkKey_ne_empty hid total index)
    rcases sendChunks_prefix_cases hpa with rfl | ⟨done, rfl, hdo⟩ | ⟨r, later, rfl, hla⟩
    · exact .nil index (chunk :: rest)
    · rw [← append_nil done]
      exact .cons hone (fun e he => hsp.about e (hdo.subset he))
        (fun r hr => hsp.status r (hdo.subset hr)) (hsp.recorded done hdo)
        (fun h => absurd rfl h) (.nil (index + 1) rest)
    · refine .cons hone hsp.about hsp.status (fun _ _ => hsp.settled)
        (fun _ => hsp.settled) (ih (fun hto => ?_) hla)
      exact (Nat.le_succ _).trans (hone hto)

end

end OutboundDispatcher

end Orchestratord.Gateway
