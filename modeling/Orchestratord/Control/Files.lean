import Orchestratord.Foundation.Dict
import Orchestratord.Foundation.Runs
import Orchestratord.Foundation.Text

/-! # Control files

The command line hands an operator's command to the daemon as a file in the control directory of
the workspace root. The daemon works through the directory once in every poll: it reads each
file, runs the handler of its command, and removes the file. The two are different processes, so
every file operation is a step of its own.

The number of a command line call, which is the place of its command among those issued, stands
for the call and for the file that it creates. -/

namespace Orchestratord.Control

open Foundation
open Foundation.Text List

structure Command where
  cmd : String
  issueId : String
  extra : String := ""
  deriving DecidableEq, Repr

/-! ## Texts -/

namespace Command

def fileName (c : Command) : String := c.cmd ++ "_" ++ c.issueId ++ ".control"

def payload (c : Command) : String := c.cmd ++ "\n" ++ c.issueId ++ "\n" ++ c.extra ++ "\n"

def parse (text : String) : Command :=
  let parts := (strip (.ofList (universalNewlines text.toList))).toList.splitOn '\n'
  { cmd := strip (.ofList (parts.getD 0 []))
    issueId := strip (.ofList (parts.getD 1 []))
    extra := strip (.ofList (['\n'].intercalate (parts.drop 2))) }

/-- A text that is one line of a file, without whitespace around it. -/
def IsLine (s : String) : Prop := strip s = s ∧ '\n' ∉ s.toList ∧ '\r' ∉ s.toList

instance (s : String) : Decidable (IsLine s) := by
  unfold IsLine
  infer_instance

@[mk_iff]
structure WellFormed (c : Command) : Prop where
  ne : c.cmd ≠ ""
  cmd : IsLine c.cmd
  issueId : IsLine c.issueId
  strip_extra : strip c.extra = c.extra
  extra : '\r' ∉ c.extra.toList

instance (c : Command) : Decidable c.WellFormed := decidable_of_iff _ (wellFormed_iff c).symm

theorem toList_payload (c : Command) : c.payload.toList =
    c.cmd.toList ++ '\n' :: (c.issueId.toList ++ '\n' :: (c.extra.toList ++ ['\n'])) := by
  simp [payload]

/-- What is left of the payload when it is stripped: the lines up to the last that is not
empty. -/
def stripped (c : Command) : List Char :=
  if c.extra ≠ "" then
    c.cmd.toList ++ '\n' :: (c.issueId.toList ++ '\n' :: c.extra.toList)
  else if c.issueId ≠ "" then c.cmd.toList ++ '\n' :: c.issueId.toList
  else c.cmd.toList

variable {c : Command}

theorem rdropWhile_stripped (h : c.WellFormed) : c.stripped.rdropWhile isSpace = c.stripped := by
  -- the last character is that of a text which is stripped and not empty
  have hla (front : List Char) {s : String} (hs : strip s = s) (hne : s ≠ "") :
      (front ++ s.toList).rdropWhile isSpace = front ++ s.toList := by
    have hne' : s.toList ≠ [] := by simpa using hne
    have hba := rdropWhile_eq_self_iff.mp (ends_of_strip_eq_self hs).2 hne'
    refine rdropWhile_eq_self_iff.mpr fun _ => ?_
    rwa [getLast_append_of_ne_nil _ hne']
  unfold stripped
  split
  case isTrue hex =>
    simpa using hla (c.cmd.toList ++ '\n' :: (c.issueId.toList ++ ['\n'])) h.strip_extra hex
  split
  case isTrue his => simpa using hla (c.cmd.toList ++ ['\n']) h.issueId.1 his
  · exact hla [] h.cmd.1 h.ne

theorem payload_eq_stripped (c : Command) :
    ∃ blanks : List Char, c.payload.toList = c.stripped ++ blanks ∧ ∀ b ∈ blanks, isSpace b := by
  have hsp : isSpace '\n' := rfl
  rw [toList_payload]
  unfold stripped
  split
  · exact ⟨['\n'], by simp, by simp [hsp]⟩
  rename_i hex
  rw [not_not.mp hex]
  split
  · exact ⟨['\n', '\n'], by simp, by simp [hsp]⟩
  case isFalse his =>
    rw [not_not.mp his]
    exact ⟨['\n', '\n', '\n'], by simp, by simp [hsp]⟩

theorem toList_strip_payload (h : c.WellFormed) : (strip c.payload).toList = c.stripped := by
  have hfr : c.payload.toList.dropWhile isSpace = c.payload.toList := by
    have hne : c.cmd.toList ≠ [] := by simpa using h.ne
    rw [toList_payload, dropWhile_append, (ends_of_strip_eq_self h.cmd.1).1]
    simp [hne]
  obtain ⟨blanks, hpa, hbl⟩ := c.payload_eq_stripped
  rw [toList_strip, hfr, hpa]
  exact rdropWhile_append (rdropWhile_stripped h) hbl

theorem universalNewlines_payload (h : c.WellFormed) :
    universalNewlines c.payload.toList = c.payload.toList := by
  apply universalNewlines_eq_self
  rw [toList_payload]
  simp [h.cmd.2.2, h.issueId.2.2, h.extra]

/-- The daemon reads what the command line wrote. -/
theorem parse_payload (h : c.WellFormed) : parse c.payload = c := by
  have hte : (strip (.ofList (universalNewlines c.payload.toList))).toList = c.stripped := by
    rw [universalNewlines_payload h, String.ofList_toList, toList_strip_payload h]
  unfold parse
  rw [hte]
  obtain ⟨cmd, issueId, extra⟩ := c
  have hem : strip "" = "" := by decide
  have hcmd := h.cmd.2.1
  have his := h.issueId.2.1
  unfold stripped
  split
  · rw [splitOn_append_cons_self_of_not_mem hcmd, splitOn_append_cons_self_of_not_mem his]
    simp [h.cmd.1, h.issueId.1, h.strip_extra]
  rename_i hex
  obtain rfl : extra = "" := not_not.mp hex
  split
  · rw [splitOn_append_cons_self_of_not_mem hcmd, splitOn_eq_singleton his]
    simp [h.cmd.1, h.issueId.1, hem]
  case isFalse his' =>
    obtain rfl : issueId = "" := not_not.mp his'
    rw [splitOn_eq_singleton hcmd]
    simp [h.cmd.1, hem]

end Command

/-- The file of a chat follow-up: a time stamp of fixed width and a random id. -/
def chatFileName (sequence : Nat) (fileId : String) : String :=
  "followup_" ++ .ofList (leftpad 20 '0' (Nat.toDigits 10 sequence)) ++ "_" ++ fileId ++ ".control"

/-! ## Handlers -/

/-- What a handler finds when it runs. -/
structure Facts where
  /-- The registry has a record of the issue. -/
  record : Bool := true
  running : Bool := false
  /-- The issue is pending review, completed or claimed. -/
  listed : Bool := false
  retryQueued : Bool := false
  /-- The record has a pull request, a workspace and a branch. -/
  hasBranch : Bool := true
  pendingFeedbackIds : List String := []
  /-- The tracker returns the issue. -/
  found : Bool := true
  /-- One of the calls that the handler makes to the registry, the tracker, the repository or
  the gateway raises. -/
  raises : Bool := false
  deriving DecidableEq, Repr

variable (facts : Facts)

def Facts.known : Bool := facts.record || facts.running || facts.listed

inductive Outcome where
  | finished
  /-- The handler wants to see the file again. -/
  | kept
  | raised
  deriving DecidableEq, Repr

/-- A handler that goes on to call the outside. -/
def callsOut : Outcome := if facts.raises then .raised else .finished

variable (issueId : String)

def handleReviewFollowupControl (extra : String) (facts : Facts) : Outcome :=
  if issueId = "" || ! facts.record || facts.running then .finished
  else
    let feedbackIds :=
      if extra ≠ "" then
        ((extra.toList.splitOn ',').map fun part => strip (.ofList part)).filter (· ≠ "")
      else facts.pendingFeedbackIds
    if feedbackIds = [] then .finished
    -- the module does not import `PullRequestRef`
    else .raised

def handleRebaseControl (facts : Facts) : Outcome :=
  if issueId = "" || ! facts.record || facts.running || ! facts.hasBranch then .finished
  -- without the tracker's issue the handler builds one, and `Issue` is not imported
  else if ! facts.found then .raised
  else callsOut facts

def handleReviewApproveControl : Outcome :=
  if ! facts.record then .finished else callsOut facts

/-- The common part of `retry` and `review_retry`. -/
def resetIssueForRetry (facts : Facts) : Outcome :=
  if issueId = "" || ! facts.known then .finished else callsOut facts

def handleFollowupControl (facts : Facts) : Outcome :=
  if issueId = "" || ! facts.known then .finished
  else if facts.running then .kept
  else callsOut facts

def applyControlCommand (cmd issueId : String) (facts : Facts) : Outcome :=
  if (cmd = "stop" || cmd = "takeover") && issueId ≠ "" && facts.retryQueued then callsOut facts
  else if issueId = "" || ! facts.running then .finished
  else if ["pause", "resume", "stop", "takeover"].contains cmd then callsOut facts
  else .finished

/-- The command is looked up in the application's registry; the host knows the others. -/
def handle (command : Command) (facts : Facts) : Outcome :=
  match command.cmd with
  | "review_followup" => handleReviewFollowupControl command.issueId command.extra facts
  | "rebase" => handleRebaseControl command.issueId facts
  | "review_approve" => handleReviewApproveControl facts
  | "review_retry" => resetIssueForRetry command.issueId facts
  | "retry" => resetIssueForRetry command.issueId facts
  | "followup" => handleFollowupControl command.issueId facts
  | "gateway_connect" => callsOut facts
  | "gateway_disconnect" => callsOut facts
  | cmd => applyControlCommand cmd command.issueId facts

/-! ## The control directory and the daemon -/

abbrev Call := Nat

structure File where
  /-- The call that created the file. -/
  inode : Call
  /-- The call that opened it last. -/
  call : Call
  text : String
  deriving DecidableEq, Repr

/-- Writing starts at the beginning of the file; what was there before and is longer stays. -/
def File.overwrite (file : File) (text : String) : File :=
  { file with text := .ofList (text.toList ++ file.text.toList.drop text.toList.length) }

/-- An open file of a command line call. -/
structure Writer where
  name : String
  inode : Call
  deriving DecidableEq, Repr

/-- Where the daemon's loop over the directory is. -/
inductive Phase where
  | resting
  /-- The names of the snapshot that are left. -/
  | scanning (rest : List String)
  | handling (name : String) (call : Call) (command : Command) (rest : List String)
  /-- The handler is done and the file is to be removed. -/
  | removing (name : String) (rest : List String)
  deriving DecidableEq, Repr

structure Host where
  files : Dict String File := .empty
  /-- The commands, by the number of their call. -/
  issued : List Command := []
  writers : Dict Call Writer := .empty
  /-- The calls that have reported success. -/
  reported : List Call := []
  /-- Calls whose file has been handled to the end, with the command that the handler was
  given. -/
  applied : List (Call × Command) := []
  phase : Phase := .resting
  deriving DecidableEq

namespace Host

variable (s : Host)

/-- `write_text` opens the file first, and so creates or empties it. -/
def writeControl (command : Command) : Host :=
  let call := s.issued.length
  let inode := ((s.files.get command.fileName).map File.inode).getD call
  { s with
    issued := s.issued ++ [command]
    files := s.files.set command.fileName ⟨inode, call, ""⟩
    writers := s.writers.set call ⟨command.fileName, inode⟩ }

/-- The payload goes to the file that was opened, which may have lost its name since. -/
def write (call : Call) : Host :=
  match s.writers.get call, s.issued[call]? with
  | some writer, some command =>
    { s with
      files := s.files.modify writer.name fun file =>
        if file.inode = writer.inode then file.overwrite command.payload else file
      writers := s.writers.erase call
      reported := s.reported ++ [call] }
  | _, _ => s

/-- The write raises and the call reports the error. -/
def failWrite (call : Call) : Host := { s with writers := s.writers.erase call }

/-- A chat follow-up is written to a temporary file, which then gets its name. -/
def chatFollowup (name : String) (command : Command) : Host :=
  let call := s.issued.length
  { s with
    issued := s.issued ++ [command]
    files := s.files.set name ⟨call, call, command.payload⟩
    reported := s.reported ++ [call] }

def snapshot : List String := (s.files.entries.map Prod.fst).insertionSort (· ≤ ·)

def poll : Host :=
  match s.phase with
  | .resting => { s with phase := .scanning s.snapshot }
  | _ => s

def read : Host :=
  match s.phase with
  | .scanning [] => { s with phase := .resting }
  | .scanning (name :: rest) =>
    match s.files.get name with
    | none => { s with phase := .resting }
    | some file => { s with phase := .handling name file.call (.parse file.text) rest }
  | _ => s

/-- The handler returns or raises. An exception leaves the loop, but the file is removed. -/
def handled (facts : Facts) : Host :=
  match s.phase with
  | .handling name call command rest =>
    match handle command facts with
    | .finished =>
      { s with applied := s.applied ++ [(call, command)], phase := .removing name rest }
    | .kept => { s with phase := .scanning rest }
    | .raised => { s with phase := .removing name [] }
  | _ => s

def unlink : Host :=
  match s.phase with
  | .removing name rest => { s with files := s.files.erase name, phase := .scanning rest }
  | _ => s

/-- The daemon dies and starts again. With isolated workspaces it first removes every directory
of the workspace root that is no preserved workspace, the control directory among them. -/
def restart (isolated : Bool) (s : Host) : Host :=
  { s with files := if isolated then .empty else s.files, phase := .resting }

end Host

inductive Input where
  | writeControl (command : Command)
  | write (call : Call)
  | failWrite (call : Call)
  | chatFollowup (sequence : Nat) (fileId issueId text : String)
  | poll
  | read
  | handled (facts : Facts)
  | unlink
  | restart
  deriving DecidableEq, Repr

def Host.step (isolated : Bool) (s : Host) : Input → Host
  | .writeControl command => s.writeControl command
  | .write call => s.write call
  | .failWrite call => s.failWrite call
  | .chatFollowup sequence fileId issueId text =>
    s.chatFollowup (chatFileName sequence fileId) ⟨"followup", issueId, text⟩
  | .poll => s.poll
  | .read => s.read
  | .handled facts => s.handled facts
  | .unlink => s.unlink
  | .restart => s.restart isolated

end Orchestratord.Control
