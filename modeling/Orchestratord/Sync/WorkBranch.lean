import Orchestratord.Foundation.Runs
import Orchestratord.Foundation.Text

/-! # The branch of an issue

A workspace keeps the branch that was checked out last. Under the shared strategy there is one
workspace for all issues, under the isolated one each has its own. -/

namespace Orchestratord.Sync

open Foundation

/-- An empty text stands for one that is missing. -/
structure Issue where
  id : String
  identifier : String := ""
  title : String := ""
  branchName : String := ""

/-- Python's `a or b`. -/
def either (a b : String) : String := if a = "" then b else a

/-- Every run of characters that may not stand in a name, and of dashes, becomes one dash. -/
def slugify (lower : String → String) (value : String) : String :=
  let chars := (lower (Text.strip value)).toList.map fun c =>
    if c.isLower || c.isDigit || c ∈ ['.', '_', '/'] then c else '-'
  let text := chars.foldr (fun c cs => if c = '-' ∧ cs.head? = some '-' then cs else c :: cs) []
  either (Text.rstripWhere (· = '-') (String.ofList (text.dropWhile (· = '-')))) "issue-update"

structure Naming where
  /-- The lower case of the host language. -/
  lower : String → String := Text.lower
  branchPrefix : String := ""

variable (n : Naming) (issue : Issue)

def defaultBranchName : String :=
  let identifier := either (either issue.identifier issue.id) "issue"
  let slug := slugify n.lower (identifier ++ "-" ++ either issue.title "update")
  either n.branchPrefix "orchestratord" ++ "/" ++ String.ofList (slug.toList.take 48)

def workBranch : String := either issue.branchName (defaultBranchName n issue)

/-- The branch of a sync, if git can check it out where it has to. -/
def ensureWorkBranch (own base : String) (current : Option String) (checksOut : Bool) :
    Option String :=
  if current = some own then some own
  else if current.any (· ≠ base) then current
  else if checksOut then some own
  else none

variable {κ : Type} [DecidableEq κ]

structure Checkouts (κ : Type) where
  current : κ → Option String
  /-- The branches that changes were committed and pushed to, with their issues. -/
  used : List (Issue × String) := []

inductive Checkouts.Step (κ : Type) where
  /-- A clone, the agent or an operator checks out a branch. -/
  | outside (workspace : κ) (branch : Option String)
  | sync (issue : Issue) (base : String) (checksOut : Bool)

namespace Checkouts

variable (workspace : Issue → κ) (s : Checkouts κ)

def step : Step κ → Checkouts κ
  | .outside place branch => { s with current := Function.update s.current place branch }
  | .sync issue base checksOut =>
    match ensureWorkBranch (workBranch n issue) base (s.current (workspace issue)) checksOut with
    | none => s
    | some branch =>
      { current := Function.update s.current (workspace issue) (some branch)
        used := s.used ++ [(issue, branch)] }

/-- Every issue has used its own branch, and no two issues have used the same. -/
structure Separate : Prop where
  own : ∀ use ∈ s.used, use.2 = workBranch n use.1
  distinct : s.used.Pairwise fun a b => a.1.id ≠ b.1.id → a.2 ≠ b.2

/-- A sync finds its own branch or the base checked out, and other issues have other branches. -/
def Tidy : Step κ → Prop
  | .outside _ _ => True
  | .sync issue base checksOut =>
    let own := workBranch n issue
    (∀ branch, s.current (workspace issue) = some branch → branch = own ∨ branch = base) ∧
      (s.current (workspace issue) = some own ∨ checksOut →
        ∀ use ∈ s.used, use.1.id ≠ issue.id → use.2 ≠ own)

variable {n workspace s} (h : s.Separate n)

include h

theorem separate_step_iff (i : Step κ) :
    (s.step n workspace i).Separate n ↔ s.Tidy n workspace i := by
  have hus : ∀ current issue branch,
      Separate n { current, used := s.used ++ [(issue, branch)] : Checkouts κ } ↔
        branch = workBranch n issue ∧ ∀ use ∈ s.used, use.1.id ≠ issue.id → use.2 ≠ branch := by
    intro current issue branch
    constructor
    · rintro ⟨hown, hdi⟩
      simp only [List.pairwise_append, List.mem_singleton, forall_eq] at hdi
      exact ⟨hown (issue, branch) (by simp), hdi.2.2⟩
    · rintro ⟨hown, hnew⟩
      constructor
      · simpa [or_imp, forall_and, hown] using h.own
      · simpa [List.pairwise_append, h.distinct] using hnew
  rcases i with _ | ⟨issue, base, checksOut⟩
  · exact iff_of_true ⟨h.own, h.distinct⟩ trivial
  simp only [step, Tidy, ensureWorkBranch]
  cases s.current (workspace issue) with
  | none =>
    cases checksOut with
    | true => simp [hus]
    | false => simp [h]
  | some branch =>
    by_cases hown : branch = workBranch n issue
    · simp [hown, hus]
    by_cases hba : branch = base
    · subst hba
      cases checksOut with
      | true => simp [hown, hus]
      | false => simp [hown, h]
    · simp [hown, hba, hus]

omit h

/-- Every sync uses the branch of its issue, and no two issues one branch, if and only if every sync
of the run is tidy. -/
theorem separate_iff_tidy (n : Naming) (workspace : Issue → κ) (current : κ → Option String)
    (steps : List (Step κ)) :
    (∀ done, done <+: steps → (runFrom (step n workspace) { current } done).Separate n) ↔
      Guarded (step n workspace) (Tidy n workspace) { current } steps := by
  have haux : ∀ (s : Checkouts κ) (i : Step κ), True → True := fun _ _ h => h
  exact Iff.symm (Guarded.iff_throughout haux (fun _ i _ h => separate_step_iff h i) trivial
    ⟨nofun, .nil⟩)

/-- In a shared workspace the second issue is committed to the branch of the first; and two issues
may have one name. -/
theorem branches_shared : let issue : Issue := { id := "1", identifier := "A", title := "1-b" }
    let other : Issue := { id := "2", identifier := "A-1", title := "b" }
    let run := runFrom (step {} fun _ => ()) { current := fun _ => some "main" }
    (run [.sync issue "main" true, .sync { issue with id := "3", title := "c" } "main" true]).used.map
        Prod.snd = ["orchestratord/a-1-b", "orchestratord/a-1-b"] ∧
      workBranch {} issue = workBranch {} other := by
  decide +kernel

end Checkouts

end Orchestratord.Sync
