import Orchestratord.Foundation.Runs

/-! # Numbering the messages of a session

An append locks the row of its session before it looks for the largest number, and the lock is
held until the transaction ends. So the messages that a transaction sees in a session it has
locked are all there are when it commits. -/

namespace Orchestratord.Db

open Foundation List Function

structure Message where
  sessionId : String
  seq : Int

/-- The statement that an append comes to next. -/
inductive Statement where
  | readMax
  | insert

structure Transaction where
  rows : List Message := []
  appending : Option (Message × Statement) := none

structure Database where
  /-- The committed messages. -/
  rows : List Message := []
  transactions : Nat → Transaction := fun _ => {}
  /-- The transaction that has locked the row of a session. -/
  lock : String → Option Nat := fun _ => none

def seqs (sessionId : String) (rows : List Message) : List Int :=
  (rows.filter (·.sessionId = sessionId)).map (·.seq)

/-- `COALESCE(MAX(seq), -1) + 1`. -/
def nextSeq (seqs : List Int) : Int := seqs.max?.getD (-1) + 1

namespace Database

variable (db : Database) (t : Nat)

def put (x : Transaction) : Database :=
  { db with transactions := update db.transactions t x }

/-- An append up to its first statement. The statement that locks the row does not run as long as
another transaction has the lock, and a number that is set is passed through. -/
def append (message : Message) (autoSeq : Bool) : Database :=
  let x := db.transactions t
  if autoSeq ∧ message.seq = 0 then
    if db.lock message.sessionId = none ∨ db.lock message.sessionId = some t then
      { db with lock := update db.lock message.sessionId (some t) }.put t
        { x with appending := some (message, .readMax) }
    else db
  else db.put t { x with appending := some (message, .insert) }

/-- The next statement of an append. -/
def advance : Database :=
  let x := db.transactions t
  match x.appending with
  | none => db
  | some (message, .readMax) =>
    let seq := nextSeq (seqs message.sessionId (db.rows ++ x.rows))
    db.put t { x with appending := some ({ message with seq }, .insert) }
  | some (message, .insert) => db.put t { rows := x.rows ++ [message] }

/-- The end of a transaction, with the messages that are committed then. -/
def finish (rows : List Message) : Database where
  rows := rows
  transactions := update db.transactions t {}
  lock := fun sessionId => (db.lock sessionId).filter (· ≠ t)

inductive Input where
  | append (t : Nat) (message : Message) (autoSeq : Bool)
  | advance (t : Nat)
  | commit (t : Nat)
  | rollback (t : Nat)

/-- A transaction appends one message after the other, and is not committed in between. -/
def step : Input → Database
  | .append t message autoSeq =>
    if (db.transactions t).appending.isSome then db else db.append t message autoSeq
  | .advance t => db.advance t
  | .commit t =>
    if (db.transactions t).appending.isSome then db
    else db.finish t (db.rows ++ (db.transactions t).rows)
  | .rollback t => db.finish t db.rows

/-- The number is left to the repository. -/
def Input.Auto : Input → Prop
  | .append _ message autoSeq => autoSeq ∧ message.seq = 0
  | _ => True

end Database

/-- Zero, one, two and so on. -/
def Numbered (seqs : List Int) : Prop := seqs = (range seqs.length).map Nat.cast

namespace Numbered

variable {seqs later : List Int}

theorem concat (h : Numbered seqs) : Numbered (seqs ++ [(seqs.length : Int)]) := by
  rw [Numbered, length_append, length_singleton, range_succ, map_append, ← h]
  rfl

theorem left (h : Numbered (seqs ++ later)) : Numbered seqs := by
  have hta := congrArg (take seqs.length) h
  rw [take_left, ← map_take, take_range] at hta
  rwa [length_append, min_eq_left (Nat.le_add_right _ _)] at hta

theorem nextSeq (h : Numbered seqs) : nextSeq seqs = seqs.length := by
  rw [Db.nextSeq, h]
  rcases seqs.length with _ | n
  · rfl
  have hmax : ((range (n + 1)).map (Nat.cast : Nat → Int)).max? = some (n : Int) := by
    rw [max?_eq_some_iff]
    refine ⟨mem_map.mpr ⟨n, by simp, rfl⟩, ?_⟩
    simp only [mem_map, mem_range, forall_exists_index, and_imp]
    omega
  simp [hmax]

end Numbered

theorem seqs_eq_nil {sessionId : String} {rows : List Message}
    (h : ∀ message ∈ rows, message.sessionId ≠ sessionId) : seqs sessionId rows = [] := by
  simpa [seqs] using h

theorem seqs_append (sessionId : String) (first later : List Message) :
    seqs sessionId (first ++ later) = seqs sessionId first ++ seqs sessionId later := by
  simp [seqs]

namespace Database

/-- A transaction sees messages in order. It has the lock on what it has written, and on what it
is numbering. -/
structure Fits (db : Database) (t : Nat) (x : Transaction) : Prop where
  seen : ∀ sessionId, Numbered (seqs sessionId (db.rows ++ x.rows))
  held : ∀ message ∈ x.rows, db.lock message.sessionId = some t
  next : ∀ message statement, x.appending = some (message, statement) →
    db.lock message.sessionId = some t ∧ (statement = .insert →
      message.seq = (seqs message.sessionId (db.rows ++ x.rows)).length)

def Sound (db : Database) : Prop := ∀ t, db.Fits t (db.transactions t)

variable {db db' : Database} {t : Nat} {x : Transaction}

theorem Fits.committed (h : db.Fits t x) (sessionId : String) : Numbered (seqs sessionId db.rows) :=
  (seqs_append sessionId db.rows x.rows ▸ h.seen sessionId).left

/-- A transaction does not notice what happens to the sessions that it has not locked. -/
theorem Fits.mono (h : db.Fits t x)
    (hke : ∀ sessionId, db.lock sessionId = some t → db'.lock sessionId = some t ∧
      seqs sessionId db'.rows = seqs sessionId db.rows)
    (hco : ∀ sessionId, Numbered (seqs sessionId db'.rows)) : db'.Fits t x := by
  have hsn : ∀ sessionId, db.lock sessionId = some t →
      seqs sessionId (db'.rows ++ x.rows) = seqs sessionId (db.rows ++ x.rows) := by
    intro sessionId hlo
    rw [seqs_append, seqs_append, (hke sessionId hlo).2]
  refine ⟨fun sessionId => ?_, fun message hrow => (hke _ (h.held message hrow)).1, ?_⟩
  · by_cases hlo : db.lock sessionId = some t
    · rw [hsn sessionId hlo]
      exact h.seen sessionId
    have hno : seqs sessionId x.rows = [] :=
      seqs_eq_nil fun message hrow hse => hlo (hse ▸ h.held message hrow)
    rw [seqs_append, hno, append_nil]
    exact hco sessionId
  · intro message statement hap
    obtain ⟨hlo, hseq⟩ := h.next message statement hap
    rw [hsn _ hlo]
    exact ⟨(hke _ hlo).1, hseq⟩

theorem Sound.put (h : db.Sound) (hx : db.Fits t x) : (db.put t x).Sound := by
  intro u
  by_cases hu : u = t
  · subst hu
    simpa [Database.put] using { hx with }
  · simpa [Database.put, update_of_ne hu] using { h u with }

theorem Sound.append (h : db.Sound) {message : Message} {autoSeq : Bool}
    (hau : autoSeq ∧ message.seq = 0) : (db.append t message autoSeq).Sound := by
  unfold Database.append
  rw [if_pos hau]
  split
  · rename_i hfr
    have hlo : Sound { db with lock := update db.lock message.sessionId (some t) } := by
      intro u
      refine (h u).mono (fun sessionId hlc => ⟨?_, rfl⟩) (h u).committed
      by_cases hse : sessionId = message.sessionId
      · subst hse
        rw [hlc] at hfr
        simpa [eq_comm] using hfr
      · simpa [update_of_ne hse] using hlc
    refine hlo.put { hlo t with next := ?_ }
    rintro _ _ ⟨⟩
    exact ⟨update_self .., nofun⟩
  · exact h

theorem Sound.advance (h : db.Sound) : (db.advance t).Sound := by
  dsimp only [Database.advance]
  split
  · exact h
  · rename_i message hap
    refine h.put { h t with next := ?_ }
    rintro _ _ ⟨⟩
    exact ⟨((h t).next _ _ hap).1, fun _ => ((h t).seen _).nextSeq⟩
  rename_i message hap
  obtain ⟨hlo, hseq⟩ := (h t).next _ _ hap
  refine h.put ⟨fun sessionId => ?_, ?_, nofun⟩
  · rw [← append_assoc, seqs_append]
    by_cases hse : message.sessionId = sessionId
    · subst hse
      have hla : seqs message.sessionId [message] = [message.seq] := by simp [seqs]
      rw [hla, hseq rfl]
      exact ((h t).seen _).concat
    · have hno : seqs sessionId [message] = [] := seqs_eq_nil (by simpa using hse)
      rw [hno, append_nil]
      exact (h t).seen sessionId
  · exact forall_mem_append.mpr ⟨(h t).held, by simpa using hlo⟩

/-- The rows that a transaction commits are of sessions that no other one has locked. -/
theorem Sound.finish (h : db.Sound) {rows : List Message}
    (hro : rows = db.rows ++ (db.transactions t).rows ∨ rows = db.rows) :
    (db.finish t rows).Sound := by
  have hco : ∀ sessionId, Numbered (seqs sessionId rows) := by
    rcases hro with rfl | rfl
    · exact (h t).seen
    · exact (h t).committed
  intro u
  by_cases hu : u = t
  · subst hu
    exact ⟨by simpa [Database.finish] using hco, by simp [Database.finish],
      by simp [Database.finish]⟩
  rw [show (db.finish t rows).transactions u = db.transactions u from update_of_ne hu _ _]
  refine (h u).mono (fun sessionId hlo => ⟨by simp [Database.finish, hlo, hu], ?_⟩) hco
  rcases hro with rfl | rfl
  · have hno : seqs sessionId (db.transactions t).rows = [] := by
      refine seqs_eq_nil fun message hrow hse => ?_
      have hmi := hse ▸ (h t).held message hrow
      exact hu (Option.some.inj (hlo.symm.trans hmi))
    show seqs sessionId (_ ++ _) = _
    rw [seqs_append, hno, append_nil]
  · rfl

theorem Sound.step (h : db.Sound) {input : Input} (hau : input.Auto) : (db.step input).Sound := by
  cases input with
  | append =>
    dsimp only [Database.step]
    split
    · exact h
    · exact h.append hau
  | advance => exact h.advance
  | commit =>
    dsimp only [Database.step]
    split
    · exact h
    · exact h.finish (.inl rfl)
  | rollback => exact h.finish (.inr rfl)

/-- In every interleaving of transactions whose appends leave the number to the repository, the
committed messages of a session are numbered from zero on, without gaps. -/
theorem committed_numbered (inputs : List Input) (hauto : ∀ input ∈ inputs, input.Auto)
    (sessionId : String) : Numbered (seqs sessionId (runFrom step {} inputs).rows) := by
  have hso : (runFrom step {} inputs).Sound :=
    Guarded.invariant (fun _ _ h hauto => h.step hauto) (.of_forall hauto)
      fun _ => ⟨fun _ => rfl, nofun, nofun⟩
  exact (hso 0).committed sessionId

/-- One append and its commit. -/
def appendOne (t : Nat) (message : Message) : List Input :=
  [.append t message true, .advance t, .advance t, .commit t]

theorem committed_numbered_one :
    Numbered (seqs "s" (runFrom step {} (appendOne 0 ⟨"s", 0⟩)).rows) :=
  committed_numbered _ (by simp [appendOne, Input.Auto]) "s"

theorem first_is_zero : seqs "s" (runFrom step {} (appendOne 0 ⟨"s", 0⟩)).rows = [0] := by decide

end Database

end Orchestratord.Db
