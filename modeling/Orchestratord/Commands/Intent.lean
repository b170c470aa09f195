import Orchestratord.Daemon.Registry
import Orchestratord.Foundation.Text

/-! # Operator intents

An operator asks for something with a label, with a command in a comment or on the command
line. The three are read and merged here. -/

namespace Orchestratord.Commands

open Foundation
open Daemon (Intent IntentSource)

/-! ## Labels -/

/-- The label of each intent; an empty one is never found. -/
structure IntentLabels where
  retry : String := "agent:retry"
  followup : String := "agent:follow-up"
  blocked : String := "agent:blocked"
  rebase : String := "agent:rebase"
  deriving DecidableEq, Repr

def normalizeLabel (value : String) : String := Text.lower (Text.strip value)

def intentFromLabelSet (mapping : IntentLabels) (labels : List String) : Intent :=
  let normalized := (labels.filter (· ≠ "")).map normalizeLabel
  let present (label : String) : Bool := normalizeLabel label ≠ "" ∧ normalizeLabel label ∈ normalized
  if present mapping.blocked then .blocked
  else if present mapping.rebase then .rebase
  else if present mapping.followup then .followup
  else if present mapping.retry then .retry
  else .none

/-! ## Comments -/

inductive Command where
  | retry
  | followup
  | unblock
  | rebase
  deriving DecidableEq, Repr

/-- The value of the command, as it is repeated in answers and records. -/
def Command.value : Command → String
  | .retry => "retry"
  | .followup => "followup"
  | .unblock => "unblock"
  | .rebase => "rebase"

/-- The subcommands in the order in which they are tried. -/
def subcommands : List (String × Command) :=
  [("retry", .retry), ("follow-up", .followup), ("unblock", .unblock), ("rebase", .rebase)]

/-- The command at the start of a line: `/agent`, space, and a subcommand that ends with its
word. `word` tells the characters of words. -/
def commandAt (word : Char → Bool) (line : List Char) : Option Command :=
  match Text.dropPrefixIgnoringCase "/agent".toList line with
  | none => none
  | some rest =>
    if rest.takeWhile Text.isSpace = [] then none
    else subcommands.findSome? fun (name, command) =>
      match Text.dropPrefixIgnoringCase name.toList (rest.dropWhile Text.isSpace) with
      | none => none
      | some after => if after.head?.any word then none else some command

/-- The first line of the rest that starts with a command. -/
def searchCommand (word : Char → Bool) : Bool → List Char → Option Command
  | _, [] => none
  | lineStart, c :: cs =>
    match if lineStart then commandAt word (c :: cs) else none with
    | some command => some command
    | none => searchCommand word (c = '\n') cs

def parseAgentCommand (word : Char → Bool) (body : String) : Option Command :=
  searchCommand word true body.toList

example : parseAgentCommand Char.isAlphanum "thanks!\n/Agent  Follow-up please" = some .followup := by
  decide

example : parseAgentCommand Char.isAlphanum "see /agent retry, or /agent retrying" = none := by
  decide

def commandToIntent : Command → Intent
  | .retry => .retry
  | .followup => .followup
  | .rebase => .rebase
  | .unblock => .none

/-! ## The merge -/

def mergeIntentsWithCli (label command cli : Intent) : Intent :=
  if label = .blocked ∨ command = .blocked ∨ cli = .blocked then .blocked
  else if label = .rebase ∨ command = .rebase ∨ cli = .rebase then .rebase
  else if label = .followup ∨ command = .followup ∨ cli = .followup then .followup
  else if cli ≠ .none then cli
  else if command ≠ .none then command
  else label

/-- The source that won the merge. -/
def intentSource (label command cli merged : Intent) : Option IntentSource :=
  if merged = .blocked then
    if label = .blocked then some .label
    else if command = .blocked then some .command
    else if cli = .blocked then some .cli
    else none
  else if cli ≠ .none ∧ merged = cli then some .cli
  else if command ≠ .none ∧ merged = command then some .command
  else if label ≠ .none ∧ merged = label then some .label
  else none

end Orchestratord.Commands
