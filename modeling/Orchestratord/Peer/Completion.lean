import Orchestratord.Peer.Framing

/-! # Requests that come to an end

The replies to a batch wait in the queue until the whole body has been read, so a request comes to
its end just when the queue has room for all of them and for the end mark. -/

namespace Orchestratord.Peer.Batch

open Foundation PeerServerConnection List PeerFrame

variable {σ : Type} {e : Endpoint σ}

/-! ## The replies to a batch -/

/-- The replies that the lines of a batch are due, whatever happens to the queue. -/
def answers (e : Endpoint σ) (world : σ) : List Bytes → List PeerFrame
  | [] => []
  | line :: lines =>
    if isBlankLine line then answers e world lines
    else match decode e.rt (e.uuid world) (e.time world) line with
      | .error _ => []
      | .ok frame =>
        match handleFrame e world frame with
        | (.next, world) => answers e world lines
        | (.stop, _) => []
        | (.reply reply _, world) => reply :: answers e world lines

/-- What reading a line does to an open queue. -/
inductive LineRead (e : Endpoint σ) (r : Reading σ) (line : Bytes) : Reading σ × Outcome → Prop
  | more (r' : Reading σ) (new : List PeerFrame) (hnew : new.length ≤ 1)
      (hclosed : r'.connection.closed = false)
      (houtbound : r'.connection.outbound = r.connection.outbound ++ new.map some)
      (hdue : ∀ lines, answers e r.world (line :: lines) = new ++ answers e r'.world lines) :
      LineRead e r line (r', .more)
  | stopped (r' : Reading σ) (hclosed : r'.connection.closed = false)
      (houtbound : r'.connection.outbound = r.connection.outbound)
      (hdue : ∀ lines, answers e r.world (line :: lines) = []) : LineRead e r line (r', .stopped)
  | waits (r' : Reading σ) (reply : PeerFrame) (counted : Bool)
      (hclosed : r'.connection.closed = false)
      (houtbound : r'.connection.outbound = r.connection.outbound)
      (hdue : ∀ lines, answers e r.world (line :: lines) = reply :: answers e r'.world lines) :
      LineRead e r line (r', .waits reply counted)

theorem put_cases (maxsize : Nat) (item : Option PeerFrame) (connection : PeerServerConnection) :
    (connection.isFull maxsize = true ∧ connection.put maxsize item = none) ∨
    (connection.isFull maxsize = false ∧ connection.put maxsize item =
      some { connection with outbound := connection.outbound ++ [item] }) := by
  unfold put
  cases connection.isFull maxsize with
  | true => exact .inl ⟨rfl, rfl⟩
  | false => exact .inr ⟨rfl, rfl⟩

/-- Queueing a reply changes the queue, or nothing. -/
theorem queueReply_cases (r : Reading σ) (reply : PeerFrame) (counted : Bool)
    (hcl : r.connection.closed = false) : (r.connection.isFull e.maxsize = true ∧
      queueReply e r reply counted = (r, .waits reply counted)) ∨
    (r.connection.isFull e.maxsize = false ∧ ∃ r', queueReply e r reply counted = (r', .more) ∧
      r'.world = r.world ∧ r'.connection.closed = false ∧
      r'.connection.outbound = r.connection.outbound ++ [some reply]) := by
  unfold queueReply sendFrame
  rw [hcl]
  rcases put_cases e.maxsize (some reply) r.connection with ⟨hfu, hput⟩ | ⟨hfu, hput⟩
  · refine .inl ⟨hfu, ?_⟩
    simp [hput]
  simp only [hput]
  refine .inr ⟨hfu, _, rfl, rfl, ?_⟩
  cases counted with
  | true | false => exact ⟨hcl, rfl⟩

variable {world : σ}

/-- A line with a frame is due what comes of the frame. -/
theorem answers_frame {line : Bytes} {frame : PeerFrame} (hbl : isBlankLine line = false)
    (hde : decode e.rt (e.uuid world) (e.time world) line = .ok frame)
    (lines : List Bytes) : answers e world (line :: lines) = match handleFrame e world frame with
      | (.next, world) => answers e world lines
      | (.stop, _) => []
      | (.reply reply _, world) => reply :: answers e world lines := by
  rw [answers, hbl, hde]
  rfl

theorem readLine_spec (r : Reading σ) (line : Bytes) (hcl : r.connection.closed = false) :
    LineRead e r line (readLine e r line) := by
  unfold readLine
  cases hbl : isBlankLine line with
  | true =>
    refine .more r [] (by simp) hcl (by simp) fun lines => ?_
    rw [answers, hbl]
    rfl
  | false =>
    rcases hde : decode e.rt (e.uuid r.world) (e.time r.world) line with _ | frame
    · refine .stopped r hcl rfl fun lines => ?_
      rw [answers, hbl, hde]
      rfl
    dsimp only [↓reduceIte]
    have hdue := answers_frame hbl hde
    unfold serveFrame
    generalize handleFrame e r.world frame = handled at hdue ⊢
    rcases handled with ⟨_ | ⟨reply, counted⟩ | _, world⟩
    · exact .more _ [] (by simp) hcl (by simp) hdue
    · have hen : (if counted then r.connection.entered else r.connection).closed = false ∧
          (if counted then r.connection.entered else r.connection).outbound =
            r.connection.outbound := by
        cases counted with
        | true | false => exact ⟨hcl, rfl⟩
      rcases queueReply_cases (e := e) { world, handled := r.handled ++ [frame]
                                         connection := if counted then r.connection.entered
                                           else r.connection } reply counted hen.1 with
        ⟨-, hqu⟩ | ⟨-, r', hqu, hwo, hcl', hou⟩
      · dsimp only
        rw [hqu]
        exact .waits _ reply counted hen.1 hen.2 hdue
      · dsimp only
        rw [hqu]
        refine .more r' [reply] (by simp) hcl' ?_ fun lines => ?_
        · rw [hou, hen.2]
          rfl
        · rw [hwo]
          exact hdue lines
    · exact .stopped _ hcl rfl hdue

/-! ## Along a request -/

namespace Request

/-- The replies are never lost: they have been written, are queued, or are still due. -/
def Accounts (e : Endpoint σ) (replies : List PeerFrame) (q : Request σ) : Prop :=
  let connection := q.reading.connection
  match q.phase with
  | .reading lines chunks => q.written = [] ∧ connection.closed = false ∧ connection.outbound ++
        (answers e q.reading.world (lines ++ chunks.flatMap splitLines)).map some = replies.map some
  | .sending reply _ lines chunks => q.written = [] ∧ connection.closed = false ∧
      connection.outbound ++
        (reply :: answers e q.reading.world (lines ++ chunks.flatMap splitLines)).map some =
          replies.map some
  | .closing => q.written = [] ∧ connection.closed = false ∧ connection.outbound = replies.map some
  | .closeWaiting => q.written = [] ∧ connection.outbound = replies.map some
  | .writing => q.written.map some ++ connection.outbound = replies.map some ++ [none]
  | .done => q.written = replies

variable {replies : List PeerFrame} {q q' : Request σ}

theorem accounts_start (world : σ) (chunks : List Bytes) :
    Accounts e (answers e world (chunks.flatMap splitLines)) (start world chunks) :=
  ⟨rfl, rfl, rfl⟩

/-! ## Room for the replies -/

/-- The queue can hold some replies and the end mark. -/
def HasRoom (maxsize : Nat) (replies : List PeerFrame) : Prop :=
  maxsize = 0 ∨ replies.length < maxsize

variable {maxsize : Nat} {connection : PeerServerConnection}

theorem isFull_iff :
    connection.isFull maxsize = true ↔ maxsize ≠ 0 ∧ maxsize ≤ connection.outbound.length := by
  simp [isFull]

theorem hasRoom_of_not_isFull
    (hfu : connection.isFull maxsize = false) (hou : connection.outbound = replies.map some) :
    HasRoom maxsize replies := by
  by_contra hro
  simp only [HasRoom, not_lt] at hro
  rw [isFull_iff.mpr (by simpa [hou] using hro)] at hfu
  cases hfu

/-- The response has not begun. -/
def Unanswered (q : Request σ) : Prop :=
  match q.phase with
  | .writing => False
  | .done => False
  | _ => True

/-- The lines that are left, and the chunks. -/
def left (lines chunks : List Bytes) : Nat :=
  lines.length + (chunks.map fun chunk => (splitLines chunk).length + 1).sum

/-- The work that is left of a request. -/
def work (q : Request σ) : Nat :=
  let queued := q.reading.connection.outbound.length
  match q.phase with
  | .reading lines chunks => 3 * left lines chunks + queued + 4
  | .sending _ _ lines chunks => 3 * left lines chunks + queued + 6
  | .closing => queued + 3
  | .closeWaiting => queued + 2
  | .writing => queued
  | .done => 0

/-- The request goes on, and gets to its response only with room for the replies; or it waits for
room, which there is not. -/
theorem Accounts.advance (h : Accounts e replies q) (hq : q.phase ≠ .done) :
    (q.step e = none ∧ ¬ HasRoom e.maxsize replies) ∨
    ∃ q', q.step e = some q' ∧ Accounts e replies q' ∧ work q' < work q ∧
      (Unanswered q → Unanswered q' ∨ HasRoom e.maxsize replies) := by
  obtain ⟨r, phase, written⟩ := q
  unfold step
  unfold Accounts at h
  cases phase with
  | reading lines chunks =>
    right
    obtain ⟨hwr, hcl, hdue⟩ := h
    rcases lines with _ | ⟨line, lines⟩
    · rcases chunks with _ | ⟨chunk, chunks⟩
      · refine ⟨_, rfl, ⟨hwr, hcl, by simpa [answers] using hdue⟩, ?_, fun _ => .inl trivial⟩
        simp only [work]
        omega
      · refine ⟨_, rfl, ⟨hwr, hcl, by simpa using hdue⟩, ?_, fun _ => .inl trivial⟩
        simp only [work, left, length_nil, map_cons, sum_cons]
        omega
    · have hli := readLine_spec (e := e) r line hcl
      dsimp only at hdue ⊢
      rw [cons_append] at hdue
      generalize readLine e r line = read at hli ⊢
      cases hli with
      | more _ _ _ hcl' hou han =>
        refine ⟨_, rfl, ⟨hwr, hcl', ?_⟩, ?_, fun _ => .inl trivial⟩
        · rwa [hou, append_assoc, ← map_append, ← han]
        · simp only [work, left, hou, length_append, length_map, length_cons]
          omega
      | stopped _ hcl' hou han =>
        refine ⟨_, rfl, ⟨hwr, hcl', ?_⟩, ?_, fun _ => .inl trivial⟩
        · rw [hou, ← hdue, han]
          simp
        · simp only [work, hou]
          omega
      | waits _ _ _ hcl' hou han =>
        refine ⟨_, rfl, ⟨hwr, hcl', ?_⟩, ?_, fun _ => .inl trivial⟩
        · rwa [hou, ← han]
        · simp only [work, left, hou, length_cons]
          omega
  | sending reply counted =>
    obtain ⟨hwr, hcl, hdue⟩ := h
    dsimp only
    rcases queueReply_cases (e := e) r reply counted hcl with
      ⟨hfu, hqu⟩ | ⟨-, r', hqu, hwo, hcl', hou⟩
    · -- the reply that waits is not in the queue, so all of them do not fit
      have hln := congrArg length hdue
      simp only [length_append, length_map, length_cons] at hln
      obtain ⟨hne, hle⟩ := isFull_iff.mp hfu
      rw [hqu]
      refine .inl ⟨rfl, ?_⟩
      unfold HasRoom
      omega
    · rw [hqu]
      refine .inr ⟨_, rfl, ⟨hwr, hcl', ?_⟩, ?_, fun _ => .inl trivial⟩
      · rw [hou, hwo, ← hdue]
        simp
      · simp only [work, hou, length_append, length_singleton]
        omega
  | closing =>
    right
    obtain ⟨hwr, hcl, hou⟩ := h
    dsimp only at hwr hcl hou ⊢
    rw [hcl]
    rcases put_cases e.maxsize none { r.connection with closed := true } with
      ⟨-, hput⟩ | ⟨hfu, hput⟩
    · rw [hput]
      exact ⟨_, rfl, ⟨hwr, hou⟩, by simp [work], fun _ => .inl trivial⟩
    · rw [hput]
      exact ⟨_, rfl, by simp [Accounts, hwr, hou], by simp [work],
        fun _ => .inr (hasRoom_of_not_isFull hfu hou)⟩
  | closeWaiting =>
    obtain ⟨hwr, hou⟩ := h
    dsimp only at hwr hou ⊢
    rcases put_cases e.maxsize none r.connection with ⟨hfu, hput⟩ | ⟨hfu, hput⟩
    · obtain ⟨hne, hle⟩ := isFull_iff.mp hfu
      rw [hput]
      refine .inl ⟨rfl, ?_⟩
      simp only [hou, length_map] at hle
      unfold HasRoom
      omega
    · rw [hput]
      exact .inr ⟨_, rfl, by simp [Accounts, hwr, hou], by simp [work],
        fun _ => .inr (hasRoom_of_not_isFull hfu hou)⟩
  | writing =>
    right
    dsimp only at h ⊢
    rcases hou : r.connection.outbound with _ | ⟨_ | frame, outbound⟩
    · -- the end mark is still to come
      rw [hou, append_nil] at h
      have hmem : (none : Option PeerFrame) ∈ written.map some := by
        rw [h]
        simp
      simp at hmem
    · -- the end mark is the last item
      rw [hou] at h
      have hla := (cut_at_first (by simp) (by simp) h).1
      exact ⟨_, rfl, map_injective_iff.mpr (Option.some_injective _) hla,
        by simp [work, hou], False.elim⟩
    · rw [hou] at h
      exact ⟨_, rfl, by simpa [Accounts] using h, by simp [work, hou], False.elim⟩
  | done => exact absurd rfl hq

variable {chunks : List Bytes}

theorem completes_of_hasRoom
    (hro : HasRoom e.maxsize (answers e world (chunks.flatMap splitLines))) :
    Completes e (start world chunks) := by
  obtain ⟨q, hre, -, hdo⟩ := exists_reaches_of_progress work (fun q h hq => by
    obtain ⟨q', hst, hne, hwo, -⟩ := (Accounts.advance h hq).resolve_left fun hwa => hwa.2 hro
    exact ⟨q', hst, hne, hwo⟩) (accounts_start world chunks)
  exact ⟨q, hre, hdo⟩

theorem not_completes_of_full
    (hro : ¬ HasRoom e.maxsize (answers e world (chunks.flatMap splitLines))) :
    ¬ Completes e (start world chunks) := by
  rintro ⟨q, hre, hdo⟩
  have hst : ∀ q q' : Request σ,
      Accounts e (answers e world (chunks.flatMap splitLines)) q ∧ Unanswered q →
      q.step e = some q' →
      Accounts e (answers e world (chunks.flatMap splitLines)) q' ∧ Unanswered q' := by
    rintro q q' ⟨h, hq⟩ hst
    have hop : q.phase ≠ .done := by
      intro hdo
      rwa [Unanswered, hdo] at hq
    rcases h.advance hop with ⟨hno, -⟩ | ⟨q'', hso, hnx, -, hun⟩
    · rw [hno] at hst
      cases hst
    · obtain rfl := Option.some.inj (hso.symm.trans hst)
      exact ⟨hnx, (hun hq).resolve_right hro⟩
  have hne := (hre.invariant hst ⟨accounts_start world chunks, trivial⟩).2
  rwa [Unanswered, hdo] at hne

/-- A request comes to its end, whatever its batch and whatever its handlers answer, if and only if
the queue is unbounded or the replies are fewer than it holds. -/
theorem completes_iff (e : Endpoint σ) (world : σ) (chunks : List Bytes) :
    Completes e (start world chunks) ↔
      HasRoom e.maxsize (answers e world (chunks.flatMap splitLines)) :=
  ⟨fun h => by_contra fun hro => not_completes_of_full hro h, completes_of_hasRoom⟩

/-- Every ping has its reply. -/
theorem length_answers_pings (n : Nat) :
    (answers quietEndpoint () (replicate n (text unaryRuntime 0 ping))).length = n := by
  induction n with
  | zero => rfl
  | succ _ ih =>
    have hde : decode unaryRuntime "id" 0 (text unaryRuntime 0 ping) = .ok ping := by
      rw [← decode_encode_eq_text]
      exact legible_ping _ _ _ _
    rw [replicate_succ, answers_frame (e := quietEndpoint) (isBlankLine_text _ _ _) hde]
    exact congrArg (· + 1) ih

/-- A batch of as many pings as the queue holds never comes to its end: the last reply takes the
place of the end mark. -/
theorem pings_never_complete : ∃ chunks : List Bytes,
      chunks.flatten = body unaryRuntime 0 (replicate outboundQueueMaxsize ping) ∧
        ¬ Completes quietEndpoint (start () chunks) := by
  refine ⟨[body unaryRuntime 0 (replicate outboundQueueMaxsize ping)], by simp, ?_⟩
  have hli : splitLines (body unaryRuntime 0 (replicate outboundQueueMaxsize ping)) =
      replicate outboundQueueMaxsize (text unaryRuntime 0 ping) := by
    have hone : ∀ line ∈ replicate outboundQueueMaxsize (text unaryRuntime 0 ping),
        OneLine line := by
      intro line hln
      rw [eq_of_mem_replicate hln]
      exact unaryRuntime.oneLine _
    rw [body_eq_unlines, map_replicate]
    simpa [splitLines, splitLinesFrom] using splitLines_unlines hone []
  refine not_completes_of_full fun hro => ?_
  rw [flatMap_singleton, hli] at hro
  rcases hro with hze | hlt
  · exact absurd hze (by decide)
  · rw [length_answers_pings] at hlt
    exact lt_irrefl _ hlt

end Request

end Orchestratord.Peer.Batch
