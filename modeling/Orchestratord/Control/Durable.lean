import Orchestratord.Control.Files
import Orchestratord.Foundation.Spool

/-! # Control commands are durable and ordered

A command that the command line has reported as sent is applied once, with its own payload, and
after the commands that were issued before it for its issue. It takes some order on both sides:
the name of a control file is made of the command and the issue, files are handled in the order
of their names, and a file is removed whatever became of its command. -/

namespace Orchestratord.Control

open Foundation Dict List Function Option

namespace Phase

/-- The names of the snapshot that have not been dealt with. -/
def queue : Phase → List String
  | .resting => []
  | .scanning rest => rest
  | .handling name _ _ rest => name :: rest
  | .removing _ rest => rest

/-- The file that is read next. -/
def upcoming : Phase → Option String
  | .scanning rest => rest.head?
  | .resting | .handling _ _ _ _ | .removing _ _ => none

/-- The call and the command that a handler works on. -/
def current : Phase → Option (Call × Command)
  | .handling _ call command _ => some (call, command)
  | .resting | .scanning _ | .removing _ _ => none

/-- The file that is about to be removed. -/
def gone : Phase → Option String
  | .removing name _ => some name
  | .resting | .scanning _ | .handling _ _ _ _ => none

end Phase

namespace Host

variable (s : Host) (call : Call)

def issueOf : Option String := s.issued[call]?.map Command.issueId

/-- The command was applied as it was issued. -/
def Applied : Prop := ∃ entry ∈ s.applied, entry.1 = call ∧ s.issued[call]? = some entry.2

/-- The command is in the control directory as it was issued. -/
def Waits : Prop :=
  ∃ entry ∈ s.files.entries, entry.2.call = call ∧ s.issued[call]? = some (.parse entry.2.text)

@[mk_iff]
structure Durable (s : Host) : Prop where
  kept : ∀ call ∈ s.reported, s.Applied call ∨ s.Waits call
  once : (s.applied.map Prod.fst).Nodup
  own : ∀ entry ∈ s.applied, entry.1 ∈ s.reported → s.issued[entry.1]? = some entry.2
  ordered : s.applied.Pairwise fun a b => s.issueOf a.1 = s.issueOf b.1 → a.1 < b.1
  /-- No command is applied before one that was issued earlier for its issue. -/
  inTurn : ∀ entry ∈ s.applied, ∀ call ∈ s.reported, call < entry.1 →
    s.issueOf call = s.issueOf entry.1 → s.Applied call

/-! ## Orderly steps -/

/-- No file has the name, and those of the issue have smaller names. -/
def Free (s : Host) (name issueId : String) : Prop :=
  s.files.get name = none ∧
    ∀ entry ∈ s.files.entries, s.issueOf entry.2.call = some issueId → entry.1 < name

/-- The file of a call is the only one of its issue. -/
def Alone (s : Host) (call : Call) : Prop :=
  ∀ entry ∈ s.files.entries, s.issueOf entry.2.call = s.issueOf call → entry.2.call = call

def Orderly (isolated : Bool) (s : Host) : Input → Prop
  | .writeControl command => command.WellFormed ∧ s.Free command.fileName command.issueId
  | .chatFollowup number fileId issueId text =>
    Command.WellFormed ⟨"followup", issueId, text⟩ ∧ s.Free (chatFileName number fileId) issueId
  | .write _ | .failWrite _ | .poll | .unlink => True
  -- the file is not being written
  | .read => ∀ entry ∈ s.writers.entries, s.phase.upcoming ≠ some entry.2.name
  | .handled facts => ∀ now ∈ s.phase.current,
    handle now.2 facts ≠ .raised ∧ (handle now.2 facts = .kept → s.Alone now.1)
  -- not between a handler and the removal of its file
  | .restart => s.phase.gone = none ∧ (isolated → s.files.entries = [])

/-! ## The directory as a spool -/

variable (s : Host) (name : String)

/-- The file under a name; one that is about to be removed does not count. -/
def held : Option File :=
  if s.phase.gone = some name then none else s.files.get name

def waiting : Option Call := (s.held name).map File.call

def spool : Spool String String where
  keys := s.issued.map Command.issueId
  waiting := s.waiting
  queue := s.phase.queue
  taken := s.applied.map Prod.fst

/-- The text that the file of a call has. -/
def content (call : Call) : String :=
  if call ∈ s.reported then (s.issued[call]?.map Command.payload).getD "" else ""

structure Sound : Prop where
  inOrder : s.spool.InOrder
  wellFormed : ∀ command ∈ s.issued, command.WellFormed
  files : ∀ name file, s.held name = some file →
    file.inode = file.call ∧ file.text = s.content file.call
  writers : ∀ call writer, s.writers.get call = some writer →
    writer.inode = call ∧ call ∉ s.reported ∧ s.waiting writer.name = some call
  reported : ∀ call ∈ s.reported, call ∈ s.applied.map Prod.fst ∨ ∃ name, s.waiting name = some call
  own : ∀ entry ∈ s.applied, entry.1 ∈ s.reported → s.issued[entry.1]? = some entry.2
  handling : ∀ name call command rest, s.phase = .handling name call command rest →
    s.waiting name = some call ∧ s.writers.get call = none ∧
      (call ∈ s.reported → s.issued[call]? = some command)
  removing : ∀ name, s.phase.gone = some name → s.files.get name ≠ none

variable {s : Host}

theorem same_iff (m n : Call) : s.spool.Same m n ↔ s.issueOf m = s.issueOf n := by
  simp only [Spool.Same, spool, issueOf, getElem?_map]

variable {name : String}

theorem held_eq_some {file : File} :
    s.held name = some file ↔ s.phase.gone ≠ some name ∧ s.files.get name = some file := by
  unfold held
  split
  case isTrue h => simp [h]
  case isFalse h => simp [h]

theorem files_of_held {file : File} (h : s.held name = some file) :
    s.files.get name = some file := (held_eq_some.mp h).2

variable {phase : Phase}

theorem held_goTo (hnow : s.phase.gone = none) (hne : phase.gone = none) :
    held { s with phase } = s.held := by
  ext name
  simp [held, hnow, hne]

variable {call : Call}

theorem held_of_waiting (h : s.waiting name = some call) :
    ∃ file, s.held name = some file ∧ file.call = call := map_eq_some_iff.mp h

variable {rest : List String}

namespace Sound

variable {s' : Host} {command : Command} (h : Sound s)

include h

theorem lt_of_waiting (hna : s.waiting name = some call) : call < s.issued.length := by
  have hlt := h.inOrder.sent hna
  rwa [spool, length_map] at hlt

theorem lt_of_held {file : File} (hhe : s.held name = some file) :
    file.call < s.issued.length := h.lt_of_waiting (by rw [waiting, hhe]; rfl)

variable (hcall : call ∈ s.reported)

include hcall

theorem lt_of_reported : call < s.issued.length := by
  rcases h.reported call hcall with hta | ⟨name, hna⟩
  · have hlt := h.inOrder.known call hta
    rwa [spool, length_map] at hlt
  · exact h.lt_of_waiting hna

theorem issued_of_reported : ∃ command, s.issued[call]? = some command ∧ command.WellFormed := by
  have hlt := h.lt_of_reported hcall
  exact ⟨s.issued[call], getElem?_eq_getElem hlt, h.wellFormed _ (getElem_mem hlt)⟩

theorem parse_content : s.issued[call]? = some (.parse (s.content call)) := by
  obtain ⟨_, his, hwe⟩ := h.issued_of_reported hcall
  rw [content, if_pos hcall, his]
  exact congrArg some (Command.parse_payload hwe).symm

theorem applied_of_taken (hta : call ∈ s.applied.map Prod.fst) : s.Applied call := by
  obtain ⟨entry, hen, rfl⟩ := mem_map.mp hta
  exact ⟨entry, hen, rfl, h.own entry hen hcall⟩

omit hcall

theorem durable : s.Durable where
  kept call hcall := by
    rcases h.reported call hcall with hta | ⟨name, hna⟩
    · exact .inl (h.applied_of_taken hcall hta)
    obtain ⟨file, hhe, rfl⟩ := held_of_waiting hna
    refine .inr ⟨(name, file), (s.files.mem_entries_iff _ _).mpr (files_of_held hhe), rfl, ?_⟩
    rw [(h.files name file hhe).2]
    exact h.parse_content hcall
  once := h.inOrder.ordered.imp fun hbe => hbe.1
  own := h.own
  ordered := by
    refine (pairwise_map.mp h.inOrder.ordered).imp fun {a b} hbe hsa => ?_
    exact hbe.2 ((same_iff a.1 b.1).mpr hsa)
  inTurn entry hen call hcall hlt hsa := by
    rcases h.reported call hcall with hta | ⟨name, hna⟩
    · exact h.applied_of_taken hcall hta
    -- what waits was issued after what has been taken
    have hpa := h.inOrder.past entry.1 (mem_map_of_mem hen) hna
    have haf := hpa.2 ((same_iff entry.1 call).mpr hsa.symm)
    exact absurd hlt (lt_asymm haf)

/-! ## One step -/

/-- A new file under a free name. -/
theorem held_set (hfr : s.files.get name = none) (file : File) (hfi : s'.files = s.files.set name file) (hph : s'.phase = s.phase) :
    s'.held = update s.held name (some file) := by
  ext a
  by_cases ha : a = name
  · subst ha
    have hgo : s.phase.gone ≠ some a := fun hgo => h.removing a hgo hfr
    rw [update_self, held, hph, if_neg hgo, hfi, get_set_self]
  · rw [update_of_ne ha, held, held, hph, hfi, get_set_ne _ _ ha]

omit h in
theorem waiting_update {file : Option File} (hhe : s'.held = update s.held name file) :
    s'.waiting = update s.waiting name (file.map File.call) := by
  funext a
  rw [waiting, hhe]
  exact congrFun (comp_update (Option.map File.call) s.held name file) a

omit h in
theorem waiting_ne_of_free {a : String} (hfr : s.files.get name = none)
    (ha : s.waiting a = some call) : a ≠ name := by
  rintro rfl
  obtain ⟨_, hfi, -⟩ := held_of_waiting ha
  exact nomatch (files_of_held hfi).symm.trans hfr

/-- The two ways to a new file differ in who has reported and who still writes. -/
theorem place (hwe : command.WellFormed) (hfr : s.Free name command.issueId) {file : File}
    (his : s'.issued = s.issued ++ [command]) (hfi : s'.files = s.files.set name file)
    (hph : s'.phase = s.phase) (hap : s'.applied = s.applied)
    (hcall : file.call = s.issued.length) (hin : file.inode = s.issued.length)
    (hte : file.text = s'.content s.issued.length)
    (hre : ∀ call, call ≠ s.issued.length → (call ∈ s'.reported ↔ call ∈ s.reported))
    (hws : ∀ call writer, s'.writers.get call = some writer → s.writers.get call = some writer ∨
        call = s.issued.length ∧ writer = ⟨name, s.issued.length⟩ ∧ call ∉ s'.reported) :
    Sound s' := by
  have hhe := h.held_set hfr.1 file hfi hph
  have hwa : s'.waiting = update s.waiting name (some s.issued.length) := hcall ▸ waiting_update hhe
  have hsp : s'.spool = s.spool.place name command.issueId := by
    ext1
    · simp [spool, Spool.place, his]
    · simpa [spool, Spool.place] using hwa
    · simp [spool, Spool.place, hph]
    · simp [spool, Spool.place, hap]
  have hlo {call : Call} (hlt : call < s.issued.length) : s'.issued[call]? = s.issued[call]? := by
    rw [his, getElem?_append_left hlt]
  have hst {a : String} {call : Call} (ha : s.waiting a = some call) :
      s'.waiting a = some call := by
    rw [hwa, update_of_ne (waiting_ne_of_free hfr.1 ha), ha]
  refine ⟨?_, ?_, ?_, ?_, ?_, ?_, ?_, ?_⟩
  · rw [hsp]
    refine h.inOrder.place ?_ fun a call ha hkey => ?_
    · refine eq_none_iff_forall_ne_some.mpr fun call hcall => ?_
      exact waiting_ne_of_free hfr.1 hcall rfl
    obtain ⟨old, hold, rfl⟩ := held_of_waiting ha
    have hen := (s.files.mem_entries_iff a old).mpr (files_of_held hold)
    apply hfr.2 (a, old) hen
    simpa [spool, issueOf] using hkey
  · intro c hc
    rw [his] at hc
    rcases mem_append.mp hc with hc | hc
    · exact h.wellFormed c hc
    · rwa [mem_singleton.mp hc]
  · intro a found hfo
    rw [hhe] at hfo
    by_cases ha : a = name
    · rw [ha, update_self] at hfo
      obtain rfl := some.inj hfo
      exact ⟨hin.trans hcall.symm, hcall ▸ hte⟩
    · rw [update_of_ne ha] at hfo
      have hlt := h.lt_of_held hfo
      have hold := h.files a found hfo
      refine ⟨hold.1, hold.2.trans ?_⟩
      simp only [content, hre found.call hlt.ne, hlo hlt]
  · intro call writer hwr
    rcases hws call writer hwr with hold | ⟨rfl, rfl, hnew⟩
    · obtain ⟨hin', hsi, hna⟩ := h.writers call writer hold
      have hlt := h.lt_of_waiting hna
      exact ⟨hin', fun hmem => hsi ((hre call hlt.ne).mp hmem), hst hna⟩
    · refine ⟨rfl, hnew, ?_⟩
      rw [hwa, update_self]
  · intro call hmem
    rw [hap]
    by_cases hnew : call = s.issued.length
    · right
      exact ⟨name, by rw [hwa, update_self, hnew]⟩
    · rcases h.reported call ((hre call hnew).mp hmem) with hta | ⟨a, ha⟩
      · exact .inl hta
      · exact .inr ⟨a, hst ha⟩
  · rw [hap]
    intro entry hen hmem
    have hlt : entry.1 < s.issued.length := by
      have hkn := h.inOrder.known entry.1 (mem_map_of_mem hen)
      rwa [spool, length_map] at hkn
    rw [hlo hlt]
    exact h.own entry hen ((hre entry.1 hlt.ne).mp hmem)
  · rw [hph]
    intro a call c rest hha
    obtain ⟨ha, hno, hown⟩ := h.handling a call c rest hha
    have hlt := h.lt_of_waiting ha
    refine ⟨hst ha, ?_, ?_⟩
    · refine eq_none_iff_forall_ne_some.mpr fun writer hwr => ?_
      rcases hws call writer hwr with hold | ⟨rfl, -, -⟩
      · rw [hno] at hold
        cases hold
      · exact absurd hlt (lt_irrefl _)
    · rwa [hlo hlt, hre call hlt.ne]
  · rw [hph, hfi]
    intro a hgo
    have hne : a ≠ name := by
      rintro rfl
      exact h.removing a hgo hfr.1
    rw [get_set_ne _ _ hne]
    exact h.removing a hgo

theorem writeControl (hwe : command.WellFormed)
    (hfr : s.Free command.fileName command.issueId) : Sound (s.writeControl command) := by
  have hnew : s.issued.length ∉ s.reported := fun hmem => lt_irrefl _ (h.lt_of_reported hmem)
  have hin : ((s.files.get command.fileName).map File.inode).getD s.issued.length =
      s.issued.length := by
    rw [hfr.1]
    rfl
  refine h.place hwe hfr rfl rfl rfl rfl rfl hin ?_ (fun _ _ => .rfl) ?_
  · exact (if_neg hnew).symm
  intro call _ hwr
  simp only [Host.writeControl, hin] at hwr
  by_cases hcall : call = s.issued.length
  · subst hcall
    rw [get_set_self] at hwr
    exact .inr ⟨rfl, (some.inj hwr).symm, hnew⟩
  · rw [get_set_ne _ _ hcall] at hwr
    exact .inl hwr

theorem chatFollowup (hwe : command.WellFormed) (hfr : s.Free name command.issueId) :
    Sound (s.chatFollowup name command) := by
  refine h.place hwe hfr rfl rfl rfl rfl rfl rfl ?_ ?_ fun _ _ hwr => .inl hwr
  · simp [content, Host.chatFollowup]
  · intro _ hne
    simp [Host.chatFollowup, hne]

omit h

section

variable {writer : Writer}

variable (hwr : s.writers.get call = some writer) (his : s.issued[call]? = some command)
include hwr his

theorem write_eq : s.write call = { s with
    files := s.files.modify writer.name fun file =>
      if file.inode = writer.inode then file.overwrite command.payload else file
    writers := s.writers.erase call
    reported := s.reported ++ [call] } := by
  simp [write, hwr, his]

/-- The payload goes to the file of the call, which still has its name and is empty. -/
theorem held_write (h : Sound s) : (s.write call).held =
    update s.held writer.name (some ⟨call, call, command.payload⟩) := by
  obtain ⟨hin, hsi, hna⟩ := h.writers call writer hwr
  obtain ⟨file, hfi, rfl⟩ := held_of_waiting hna
  obtain ⟨hgo, hget⟩ := held_eq_some.mp hfi
  obtain ⟨hfr, hte⟩ := h.files writer.name file hfi
  rw [content, if_neg hsi] at hte
  rw [write_eq hwr his]
  ext a
  by_cases ha : a = writer.name
  · rw [ha, held, if_neg hgo, get_modify_self, hget, map_some, if_pos (hfr.trans hin.symm)]
    simp [File.overwrite, hte, hfr]
  · rw [update_of_ne ha, held, held, get_modify_ne _ _ ha]

theorem waiting_write (h : Sound s) : (s.write call).waiting = s.waiting := by
  rw [waiting_update (h.held_write hwr his), map_some,
    ← (h.writers call writer hwr).2.2, update_eq_self]

theorem spool_write (h : Sound s) : (s.write call).spool = s.spool := by
  ext1
  case waiting => exact h.waiting_write hwr his
  all_goals rw [spool, spool, write_eq hwr his]

theorem write_of_writer (h : Sound s) : Sound (s.write call) := by
  have hna := (h.writers call writer hwr).2.2
  have hhe := h.held_write hwr his
  have hwa := h.waiting_write hwr his
  have hor : Spool.InOrder (s.write call).spool := h.spool_write hwr his ▸ h.inOrder
  rw [write_eq hwr his] at hhe hwa hor ⊢
  have hot {c : Call} (hne : c ≠ call) : c ∈ s.reported ++ [call] ↔ c ∈ s.reported := by
    simp [hne]
  refine ⟨hor, h.wellFormed, ?_, ?_, ?_, ?_, ?_, ?_⟩
  · intro a found hfo
    rw [hhe] at hfo
    by_cases ha : a = writer.name
    · rw [ha, update_self] at hfo
      obtain rfl := some.inj hfo
      simp [content, his]
    · rw [update_of_ne ha] at hfo
      have hne : found.call ≠ call := by
        intro heq
        have hsa : s.waiting a = some call := by rw [waiting, hfo, map_some, heq]
        exact ha (h.inOrder.single hsa hna)
      refine ⟨(h.files a found hfo).1, (h.files a found hfo).2.trans ?_⟩
      simp only [content, hot hne]
  · intro c found hfo
    have hne : c ≠ call := by
      rintro rfl
      rw [get_erase_self] at hfo
      cases hfo
    rw [get_erase_ne _ hne] at hfo
    rw [hot hne, hwa]
    exact h.writers c found hfo
  · intro c hc
    rw [hwa]
    by_cases hne : c = call
    · exact .inr ⟨writer.name, hne ▸ hna⟩
    · exact h.reported c ((hot hne).mp hc)
  · intro entry hen hmem
    have hpa := h.inOrder.past entry.1 (mem_map_of_mem hen) hna
    exact h.own entry hen ((hot hpa.1).mp hmem)
  · intro a c command' rest hph
    obtain ⟨ha, hno, hown⟩ := h.handling a c command' rest hph
    have hne : c ≠ call := by
      rintro rfl
      exact nomatch hwr.symm.trans hno
    rw [hwa, hot hne, get_erase_ne _ hne]
    exact ⟨ha, hno, hown⟩
  · intro a hgo
    have hth := h.removing a hgo
    rw [get_modify]
    split
    · simpa using hth
    · exact hth

omit hwr his

theorem write (h : Sound s) (call : Call) : Sound (s.write call) := by
  cases hwr : s.writers.get call with
  | none =>
    rwa [Host.write, hwr]
  | some writer =>
    obtain ⟨command, his⟩ : ∃ command, s.issued[call]? = some command :=
      ⟨_, getElem?_eq_getElem (h.lt_of_waiting (h.writers call writer hwr).2.2)⟩
    exact h.write_of_writer hwr his

end

variable (h : Sound s)

include h

theorem failWrite (call : Call) : Sound (s.failWrite call) := by
  have her {c : Call} {writer : Writer} (hwr : (s.failWrite call).writers.get c = some writer) :
      s.writers.get c = some writer := by
    rw [Host.failWrite, get_erase] at hwr
    split at hwr
    · cases hwr
    · exact hwr
  refine { h with writers := ?_, handling := ?_ }
  · intro c writer hwr
    exact h.writers c writer (her hwr)
  intro name c command rest hph
  obtain ⟨hna, hno, hown⟩ := h.handling name c command rest hph
  refine ⟨hna, eq_none_iff_forall_ne_some.mpr fun writer hwr => ?_, hown⟩
  have hold := her hwr
  rw [hno] at hold
  cases hold

/-- The daemon goes on with the same files before it. -/
theorem move {files : Dict String File} (hhe : held { s with files, phase } = s.held)
    (hor : Spool.InOrder { s.spool with queue := phase.queue })
    (hha : ∀ name call command rest, phase = .handling name call command rest →
      s.waiting name = some call ∧ s.writers.get call = none ∧
        (call ∈ s.reported → s.issued[call]? = some command))
    (hre : phase.gone = none) : Sound { s with files, phase } := by
  have hwa : waiting { s with files, phase } = s.waiting := by
    ext a
    rw [waiting, hhe, waiting]
  have hsp : spool { s with files, phase } = { s.spool with queue := phase.queue } := by
    ext1
    · rfl
    · exact hwa
    · rfl
    · rfl
  refine ⟨hsp ▸ hor, h.wellFormed, ?_, ?_, ?_, h.own, ?_, ?_⟩
  · rw [hhe]
    exact h.files
  · rw [hwa]
    exact h.writers
  · rw [hwa]
    exact h.reported
  · rwa [hwa]
  · intro _ hgo
    rw [hre] at hgo
    cases hgo

theorem poll : Sound s.poll := by
  unfold Host.poll
  split
  case h_2 => exact h
  rename_i hph
  have hgo : s.phase.gone = none := by rw [hph]; rfl
  have hpe : s.snapshot.Perm (s.files.entries.map Prod.fst) := perm_insertionSort _ _
  refine h.move (held_goTo hgo rfl) (h.inOrder.snapshot ?_ ?_) nofun rfl
  · have hle : s.snapshot.Pairwise (· ≤ ·) := pairwise_insertionSort _ _
    have hne : s.snapshot.Pairwise (· ≠ ·) := hpe.nodup_iff.mpr s.files.nodup
    exact hle.imp₂ (fun _ _ hle hne => lt_of_le_of_ne hle hne) hne
  intro name
  refine hpe.mem_iff.trans ⟨?_, ?_⟩
  · intro hna
    obtain ⟨entry, hen, rfl⟩ := mem_map.mp hna
    have hfo := (s.files.mem_entries_iff entry.1 entry.2).mp hen
    have hhe' : s.held entry.1 = some entry.2 := held_eq_some.mpr ⟨by rw [hgo]; nofun, hfo⟩
    exact ⟨entry.2.call, map_eq_some_iff.mpr ⟨entry.2, hhe', rfl⟩⟩
  · rintro ⟨_, hcall⟩
    obtain ⟨file, hfi, -⟩ := held_of_waiting hcall
    exact mem_map_of_mem ((s.files.mem_entries_iff name file).mpr (files_of_held hfi))

theorem read (hqt : ∀ entry ∈ s.writers.entries, s.phase.upcoming ≠ some entry.2.name) :
    Sound s.read := by
  unfold Host.read
  split
  case h_1 hph =>
    have hgo : s.phase.gone = none := by rw [hph]; rfl
    exact h.move (held_goTo hgo rfl) h.inOrder.reset nofun rfl
  case h_2 name rest hph =>
    have hqu : s.spool.queue = name :: rest := by rw [spool, hph]; rfl
    obtain ⟨call, hcall⟩ := h.inOrder.queued name (hqu ▸ mem_cons_self)
    obtain ⟨file, hfi, rfl⟩ := held_of_waiting hcall
    rw [files_of_held hfi]
    have hgo : s.phase.gone = none := by rw [hph]; rfl
    refine h.move (held_goTo hgo rfl) ?_ ?_ rfl
    · have hsa : { s.spool with queue := name :: rest } = s.spool := by rw [← hqu]
      exact hsa ▸ h.inOrder
    rintro _ _ _ _ heq
    obtain ⟨rfl, rfl, rfl, rfl⟩ := Phase.handling.inj heq
    refine ⟨hcall, ?_, fun hmem => ?_⟩
    · refine eq_none_iff_forall_ne_some.mpr fun writer hwr => ?_
      have hna := (h.writers file.call writer hwr).2.2
      have hen := (s.writers.mem_entries_iff _ _).mpr hwr
      apply hqt _ hen
      rw [hph, h.inOrder.single hna hcall]
      rfl
    · rw [(h.files name file hfi).2]
      exact h.parse_content hmem
  · exact h

/-- A command is applied: it was the first of its issue that waited. -/
theorem finish (hph : s.phase = .handling name call command rest) :
    Sound { s with applied := s.applied ++ [(call, command)], phase := .removing name rest } := by
  set s' : Host := { s with
    applied := s.applied ++ [(call, command)], phase := .removing name rest }
  obtain ⟨hna, hno, hown⟩ := h.handling name call command rest hph
  obtain ⟨file, hfi, -⟩ := held_of_waiting hna
  have hhe : s'.held = update s.held name none := by
    funext a
    by_cases ha : a = name
    · rw [ha, update_self]
      exact if_pos rfl
    · have hgo : s'.phase.gone ≠ some a := fun heq => ha (some.inj heq).symm
      have hgo' : s.phase.gone ≠ some a := by simp [hph, Phase.gone]
      rw [update_of_ne ha, held, held, if_neg hgo, if_neg hgo']
  have hwa : s'.waiting = update s.waiting name none := waiting_update hhe
  have hsp : s'.spool = s.spool.take name call := by
    ext1
    · rfl
    · exact hwa
    · simp [s', spool, Spool.take, hph, Phase.queue]
    · simp [s', spool, Spool.take]
  have hqu : s.spool.queue = name :: rest := by rw [spool, hph]; rfl
  have hst {a : String} {c : Call} (hne : c ≠ call) (ha : s.waiting a = some c) :
      s'.waiting a = some c := by
    have hot : a ≠ name := by
      rintro rfl
      exact hne (some.inj (ha.symm.trans hna))
    rw [hwa, update_of_ne hot, ha]
  refine ⟨hsp ▸ h.inOrder.take hqu hna, h.wellFormed, ?_, ?_, ?_, ?_, by simp [s'], ?_⟩
  · intro a found hfo
    apply h.files a found
    by_cases ha : a = name
    · rw [hhe, ha, update_self] at hfo
      cases hfo
    · rwa [hhe, update_of_ne ha] at hfo
  · intro c writer hwr
    obtain ⟨hin, hsi, ha⟩ := h.writers c writer hwr
    refine ⟨hin, hsi, hst ?_ ha⟩
    rintro rfl
    rw [show s.writers.get c = some writer from hwr] at hno
    cases hno
  · intro c hc
    simp only [s', map_append, mem_append]
    by_cases hne : c = call
    · exact .inl (.inr (by simp [hne]))
    · rcases h.reported c hc with hta | ⟨a, ha⟩
      · exact .inl (.inl hta)
      · exact .inr ⟨a, hst hne ha⟩
  · intro entry hen hmem
    rcases mem_append.mp hen with hold | hnew
    · exact h.own entry hold hmem
    · obtain rfl := mem_singleton.mp hnew
      exact hown hmem
  · intro a hgo
    obtain rfl := some.inj hgo
    have hth : s.files.get name = some file := files_of_held hfi
    exact fun hmi => by cases hth.symm.trans hmi

theorem handled (facts : Facts) (hre : ∀ now ∈ s.phase.current,
      handle now.2 facts ≠ .raised ∧ (handle now.2 facts = .kept → s.Alone now.1)) :
    Sound (s.handled facts) := by
  unfold Host.handled
  split
  case h_2 => exact h
  rename_i name call command rest hph
  obtain ⟨hra, hke⟩ := hre (call, command) (by rw [hph]; rfl)
  split
  · exact h.finish hph
  case h_2 hou =>
    have hna := (h.handling name call command rest hph).1
    have hqu : s.spool.queue = name :: rest := by rw [spool, hph]; rfl
    have hpa : s.spool.pass = { s.spool with queue := rest } := by
      rw [Spool.pass, hqu, tail_cons]
    have hgo : s.phase.gone = none := by rw [hph]; rfl
    refine h.move (held_goTo hgo rfl) ?_ (by simp) rfl
    show Spool.InOrder { s.spool with queue := rest }
    rw [← hpa]
    refine h.inOrder.pass hqu hna fun a c ha hsa => ?_
    obtain ⟨file, hfi, rfl⟩ := held_of_waiting ha
    have hen := (s.files.mem_entries_iff a file).mpr (files_of_held hfi)
    have hcall := hke hou (a, file) hen ((same_iff call file.call).mp hsa).symm
    exact h.inOrder.single ha (hcall ▸ hna)
  case h_3 hou => exact absurd hou hra

theorem unlink : Sound s.unlink := by
  unfold Host.unlink
  split
  case h_2 => exact h
  rename_i rest hph
  refine h.move ?_ ?_ nofun rfl
  · ext a
    simp only [held, hph, Phase.gone, get_erase, reduceCtorEq, if_false, some.injEq, eq_comm]
  have hqu : rest = s.spool.queue := by rw [spool, hph]; rfl
  show Spool.InOrder { s.spool with queue := rest }
  rw [hqu]
  exact h.inOrder

variable {isolated : Bool}

theorem restart (hgo : s.phase.gone = none)
    (hfi : isolated → s.files.entries = []) : Sound (s.restart isolated) := by
  refine h.move ?_ h.inOrder.reset nofun rfl
  have hsa : (if isolated then .empty else s.files) = s.files := by
    split
    case isTrue his =>
      obtain ⟨⟨entries, _⟩, _⟩ := s
      obtain rfl : entries = [] := hfi his
      rfl
    · rfl
  rw [hsa]
  exact held_goTo hgo rfl

theorem step (input : Input) (hor : s.Orderly isolated input) : Sound (s.step isolated input) := by
  cases input with
  | writeControl => exact h.writeControl hor.1 hor.2
  | write call => exact h.write call
  | failWrite call => exact h.failWrite call
  | chatFollowup => exact h.chatFollowup hor.1 hor.2
  | poll => exact h.poll
  | read => exact h.read hor
  | handled facts => exact h.handled facts hor
  | unlink => exact h.unlink
  | restart => exact h.restart hor.1 hor.2

omit h

theorem empty : Sound {} := ⟨.empty, nofun, nofun, nofun, nofun, nofun, nofun, nofun⟩

end Sound

/-! ## A poll that is not disturbed -/

/-- The command in the file of a name. -/
def commandAt (s : Host) (name : String) : Command :=
  .parse (((s.files.get name).map File.text).getD "")

/-- The steps of the daemon for the files of some names. -/
def sweep (facts : String → Facts) (names : List String) : List Input :=
  names.flatMap fun name => [.read, .handled (facts name), .unlink]

/-- The steps of a poll in which no other process takes part. -/
def quietPoll (s : Host) (facts : String → Facts) : List Input :=
  .poll :: sweep facts s.snapshot ++ [.read]

/-- Such a poll, with handlers that return, leaves no reported command behind. -/
def Delivers (isolated : Bool) (s : Host) : Prop :=
  s.phase = .resting → s.writers.entries = [] → ∀ facts : String → Facts,
    (∀ name ∈ s.snapshot, handle (s.commandAt name) (facts name) = .finished) →
      ∀ call ∈ s.reported, Applied (runFrom (step isolated) s (s.quietPoll facts)) call

section

variable (isolated : Bool) {facts : String → Facts}

theorem runFrom_file {file : File}
    (hph : s.phase = .scanning (name :: rest)) (hfl : s.files.get name = some file)
    (hfi : handle (.parse file.text) (facts name) = .finished) :
    runFrom (step isolated) s [.read, .handled (facts name), .unlink] = { s with
        files := s.files.erase name
        applied := s.applied ++ [(file.call, .parse file.text)]
        phase := .scanning rest } := by
  simp [step, read, handled, unlink, hph, hfl, hfi]

theorem Sound.file (h : Sound s) {file : File}
    (hph : s.phase = .scanning (name :: rest)) (hqt : s.writers.entries = [])
    (hfl : s.files.get name = some file)
    (hfi : handle (.parse file.text) (facts name) = .finished) :
    Sound (runFrom (.step isolated) s [.read, .handled (facts name), .unlink]) := by
  have hrd : s.step isolated .read =
      { s with phase := .handling name file.call (.parse file.text) rest } := by
    simp [Host.step, Host.read, hph, hfl]
  have hre : Sound (s.step isolated .read) := h.step .read (by simp [Orderly, hqt])
  refine .unlink (.handled hre (facts name) ?_)
  rw [hrd]
  intro _ hnow
  obtain rfl := mem_some_iff.mp hnow
  rw [hfi]
  simp

/-- The files of the snapshot are handled one after the other. -/
theorem Sound.sweep {names : List String} (h : Sound s) (hph : s.phase = .scanning names)
    (hqt : s.writers.entries = [])
    (hfi : ∀ name ∈ names, handle (s.commandAt name) (facts name) = .finished) :
    ∃ s', runFrom (.step isolated) s (Host.sweep facts names) = s' ∧ Sound s' ∧
      s'.phase = .scanning [] ∧ s'.reported = s.reported ∧
      ∀ name, s'.files.get name = if name ∈ names then none else s.files.get name := by
  induction names generalizing s with
  | nil => exact ⟨s, rfl, h, hph, rfl, fun name => by simp⟩
  | cons name rest ih =>
    have hqu : s.spool.queue = name :: rest := by rw [spool, hph]; rfl
    obtain ⟨_, hcall⟩ := h.inOrder.queued name (hqu ▸ mem_cons_self)
    obtain ⟨file, hhe, -⟩ := held_of_waiting hcall
    have hfl := files_of_held hhe
    have hco : handle (.parse file.text) (facts name) = .finished := by
      simpa [commandAt, hfl] using hfi name mem_cons_self
    have hnx := h.file isolated hph hqt hfl hco
    have hst := runFrom_file isolated hph hfl hco
    rw [hst] at hnx
    have hso := pairwise_cons.mp (hqu ▸ h.inOrder.sorted)
    obtain ⟨s', hrun, hsn, hph', hre, hfs⟩ := ih hnx rfl hqt (by
      intro other hot
      have hne : other ≠ name := (hso.1 other hot).ne'
      simpa [commandAt, hne] using hfi other (mem_cons_of_mem name hot))
    refine ⟨s', ?_, hsn, hph', hre, fun other => ?_⟩
    · rw [← hrun, ← hst]
      simp [Host.sweep]
    · rw [hfs other]
      by_cases hot : other = name
      all_goals simp [hot]

end

theorem Sound.delivers (h : Sound s) (isolated : Bool) : s.Delivers isolated := by
  intro hph hqt facts hfn call hcall
  have hpo : s.poll = { s with phase := .scanning s.snapshot } := by rw [Host.poll, hph]
  have hst : Sound { s with phase := .scanning s.snapshot } := hpo ▸ h.poll
  obtain ⟨s', hrun, hsn, hph', hre, hfl⟩ := hst.sweep isolated rfl hqt hfn
  have hem (name : String) : s'.files.get name = none := by
    rw [hfl name]
    split
    · rfl
    rename_i hna
    refine eq_none_iff_forall_ne_some.mpr fun file hfi => hna ?_
    have hen := (s.files.mem_entries_iff name file).mpr hfi
    exact (perm_insertionSort _ _).mem_iff.mpr (mem_map_of_mem hen)
  have hend : runFrom (.step isolated) s (s.quietPoll facts) = s'.read := by
    rw [← hrun]
    simp [quietPoll, runFrom, Host.step, hpo]
  have hrd : s'.read = { s' with phase := .resting } := by rw [Host.read, hph']
  have hmem : call ∈ s'.reported := hre ▸ hcall
  rw [hend, hrd]
  rcases hsn.reported call hmem with hta | ⟨name, hna⟩
  · exact hsn.applied_of_taken hmem hta
  obtain ⟨_, hhe, -⟩ := held_of_waiting hna
  have hfi := files_of_held hhe
  rw [hem name] at hfi
  cases hfi

/-- In every run whose steps are orderly, every reported command is applied with its own payload
or still waits with it, none is applied twice or out of turn, and the next poll that is not
disturbed applies what waits. -/
theorem durable_of_orderly (isolated : Bool) (inputs : List Input)
    (hrun : Guarded (step isolated) (Orderly isolated) {} inputs) (start : List Input)
    (hstart : start <+: inputs) : Durable (runFrom (step isolated) {} start) ∧
      Delivers isolated (runFrom (step isolated) {} start) := by
  have hke : ∀ s input, Sound s → s.Orderly isolated input → Sound (s.step isolated input) :=
    fun _ input h hor => h.step input hor
  have hsn := hrun.throughout hke .empty hstart
  exact ⟨hsn.durable, hsn.delivers isolated⟩

/-! ## Runs -/

instance (s : Host) (call : Call) : Decidable (s.Applied call) := by
  unfold Applied
  infer_instance

instance (s : Host) (call : Call) : Decidable (s.Waits call) := by
  unfold Waits
  infer_instance

instance (s : Host) (name issueId : String) : Decidable (s.Free name issueId) := by
  unfold Free
  infer_instance

instance (s : Host) (call : Call) : Decidable (s.Alone call) := by
  unfold Alone
  infer_instance

instance (isolated : Bool) (s : Host) : ∀ input, Decidable (s.Orderly isolated input) := by
  intro _
  unfold Orderly
  split <;> infer_instance

/-- The daemon handles the first file of its directory. -/
def handlesOne (facts : Facts) : List Input := [.poll, .read, .handled facts, .unlink]

/-- A call that writes its file. -/
def sends (call : Call) (command : Command) : List Input := [.writeControl command, .write call]

/-- A rejection is applied, and a follow-up for the same issue is kept while its run is
active and applied after a restart. -/
def orderlyRun : List Input :=
  sends 0 ⟨"review_retry", "7", "add a test\nfor zero"⟩ ++ handlesOne {} ++ .read ::
    sends 1 ⟨"followup", "7", "later"⟩ ++
    [.poll, .read, .handled { running := true }, .read, .restart] ++
    sends 2 ⟨"stop", "7", ""⟩ ++ handlesOne {} ++ [.read, .handled {}, .unlink, .read]

theorem orderlyRun_durable : let s := runFrom (step false) {} orderlyRun
    s.applied.map Prod.fst = [0, 1, 2] ∧ s.Durable :=
  ⟨by decide +kernel,
    (durable_of_orderly false orderlyRun (by decide +kernel) orderlyRun (prefix_refl _)).1⟩

instance (s : Host) : Decidable s.Durable := decidable_of_iff _ (durable_iff s).symm

/-- The second retry goes to the file of the first. -/
def overwrittenRun : List Input :=
  sends 0 ⟨"retry", "7", "first"⟩ ++ sends 1 ⟨"retry", "7", "second"⟩ ++ handlesOne {}

/-- A stop and then a retry, as a retry that stops the run first sends them. -/
def reorderedRun : List Input :=
  sends 0 ⟨"stop", "7", ""⟩ ++ sends 1 ⟨"retry", "7", "again"⟩ ++ handlesOne { running := true } ++
    [.read, .handled {}, .unlink]

/-- The stop overtakes a follow-up that waits for the run to end. -/
def overtakenRun : List Input :=
  sends 0 ⟨"followup", "7", "please"⟩ ++ sends 1 ⟨"stop", "7", ""⟩ ++
    [.poll, .read, .handled { running := true }, .read, .handled { running := true }, .unlink]

/-- The daemon finds the file between its creation and the write. -/
def earlyRun : List Input :=
  .writeControl ⟨"review_approve", "7", "fine"⟩ :: handlesOne {} ++ [.write 0]

/-- A review follow-up of a known issue raises. -/
def raisingRun : List Input := sends 0 ⟨"review_followup", "7", "12"⟩ ++ handlesOne {}

/-- The daemon starts again before it has seen the file. -/
def restartedRun : List Input := sends 0 ⟨"retry", "7", "again"⟩ ++ [.restart]

/-- The daemon dies after the handler and before the file is removed. -/
def repeatedRun : List Input :=
  sends 0 ⟨"retry", "7", "again"⟩ ++ [.poll, .read, .handled {}, .restart] ++ handlesOne {}

/-- Commands that were reported as sent are lost, replaced, reordered or applied twice. -/
theorem commands_lost : let overwritten := runFrom (step false) {} overwrittenRun
    let reordered := runFrom (step false) {} reorderedRun
    let overtaken := runFrom (step false) {} overtakenRun
    let early := runFrom (step false) {} earlyRun
    let raising := runFrom (step false) {} raisingRun
    let restarted := runFrom (step true) {} restartedRun
    let repeated := runFrom (step false) {} repeatedRun
    (¬ overwritten.Durable ∧ overwritten.reported = [0, 1] ∧ overwritten.files.entries = [] ∧
      overwritten.applied = [(1, ⟨"retry", "7", "second"⟩)]) ∧
    (¬ reordered.Durable ∧
      reordered.applied = [(1, ⟨"retry", "7", "again"⟩), (0, ⟨"stop", "7", ""⟩)]) ∧
    (¬ overtaken.Durable ∧ overtaken.applied = [(1, ⟨"stop", "7", ""⟩)]) ∧
    (¬ early.Durable ∧ early.reported = [0] ∧ early.files.entries = [] ∧
      early.applied = [(0, ⟨"", "", ""⟩)]) ∧
    (¬ raising.Durable ∧ raising.reported = [0] ∧ raising.files.entries = [] ∧
      raising.applied = []) ∧
    (¬ restarted.Durable ∧ restarted.reported = [0] ∧ restarted.files.entries = [] ∧
      restarted.applied = []) ∧
    (¬ repeated.Durable ∧
      repeated.applied = [(0, ⟨"retry", "7", "again"⟩), (0, ⟨"retry", "7", "again"⟩)]) := by
  refine ⟨?_, ?_, ?_, ?_, ?_, ?_, ?_⟩ <;> decide +kernel

end Host

end Orchestratord.Control
