import Orchestratord.Workspaces.Containment

/-! # Isolation of the workspaces of two issues

Under the isolated strategy the directory of an issue is named after its identifier with
every unsafe character replaced by `_`. Two identifiers share a directory exactly when
the replacement blurs all their differences, and the identifiers `.` and `..` lead out of
the workspaces altogether. With these cases excluded, two issues never meet: this module
shows both directions. -/

namespace Orchestratord.Workspaces

open Foundation FileTree List

/-! ## Which identifiers are confused -/

/-- A character that the replacement turns into `_`. -/
def Blurred (c : Char) : Prop := c = '_' ∨ safeChar c = false

instance : DecidablePred Blurred := fun c =>
  inferInstanceAs (Decidable (c = '_' ∨ safeChar c = false))

/-- Two identifiers of one length that differ only where both have a blurred character. -/
def Confusable (a b : String) : Prop :=
  List.Forall₂ (fun c e => c = e ∨ (Blurred c ∧ Blurred e)) a.toList b.toList

instance (a b : String) : Decidable (Confusable a b) :=
  inferInstanceAs (Decidable (List.Forall₂ _ _ _))

/-- An identifier that names an entry of its own directory's parent. -/
def ProperName (a : String) : Prop := a ≠ "." ∧ a ≠ ".."

instance : DecidablePred ProperName := fun a => inferInstanceAs (Decidable (a ≠ "." ∧ a ≠ ".."))

variable {c : Char}

theorem sanitize_eq_underscore : sanitize c = '_' ↔ Blurred c := by
  unfold sanitize Blurred
  by_cases hc : safeChar c = true
  · simp [hc]
  · simp [hc]

theorem sanitize_of_not_blurred (hc : ¬ Blurred c) : sanitize c = c := by
  have hsa : safeChar c = true := by
    by_contra hno
    exact hc (.inr (by simpa using hno))
  simp [sanitize, hsa]

theorem sanitize_eq_iff {e : Char} : sanitize c = sanitize e ↔ c = e ∨ (Blurred c ∧ Blurred e) := by
  constructor
  · intro heq
    by_cases hc : Blurred c
    · have hun : sanitize e = '_' := heq ▸ sanitize_eq_underscore.mpr hc
      exact .inr ⟨hc, sanitize_eq_underscore.mp hun⟩
    have he : ¬ Blurred e := fun he =>
    hc (sanitize_eq_underscore.mp (heq.trans (sanitize_eq_underscore.mpr he)))
    rw [sanitize_of_not_blurred hc, sanitize_of_not_blurred he] at heq
    exact .inl heq
  · rintro (rfl | ⟨hc, he⟩)
    · rfl
    · rw [sanitize_eq_underscore.mpr hc, sanitize_eq_underscore.mpr he]

theorem sanitize_eq_dot : sanitize c = '.' ↔ c = '.' := by
  constructor
  · intro h
    have hc : ¬ Blurred c := fun hc => by
      rw [sanitize_eq_underscore.mpr hc] at h
      exact absurd h (by decide)
    rwa [sanitize_of_not_blurred hc] at h
  · rintro rfl
    decide

theorem safeIdentifier_toList {a : String} (ha : a ≠ "") :
    (safeIdentifier a).toList = a.toList.map sanitize := by
  simp [safeIdentifier, ha]

theorem safeIdentifier_eq_iff {a b : String} (ha : a ≠ "") (hb : b ≠ "") :
    safeIdentifier a = safeIdentifier b ↔ Confusable a b := by
  rw [← String.toList_inj, safeIdentifier_toList ha, safeIdentifier_toList hb,
    ← forall₂_eq_eq_eq, forall₂_map_left_iff, forall₂_map_right_iff]
  simp only [sanitize_eq_iff, Confusable]

/-- Dots are not replaced, and nothing is replaced by one. -/
theorem map_sanitize_eq_dots {l dots : List Char} (hdo : ∀ c ∈ dots, c = '.') :
    l.map sanitize = dots ↔ l = dots := by
  induction dots generalizing l with
  | nil => simp
  | cons c rest ih =>
    obtain rfl : c = '.' := hdo c (by simp)
    rcases l with _ | ⟨e, l⟩
    · simp
    · simp only [map_cons, cons.injEq, sanitize_eq_dot]
      rw [ih fun c hc => hdo c (by simp [hc])]

theorem safeIdentifier_eq_dots {a dots : String} (ha : a ≠ "")
    (hdo : ∀ c ∈ dots.toList, c = '.') : safeIdentifier a = dots ↔ a = dots := by
  rw [← String.toList_inj, safeIdentifier_toList ha, map_sanitize_eq_dots hdo, String.toList_inj]

/-! ## The directory of an issue -/

namespace WorkspaceManager

/-- Where the workspace path of an issue leads. -/
def workspaceDir (m : WorkspaceManager) (issue : Issue) : Path := resolve (m.workspacePath issue)

variable {m : WorkspaceManager} {issue : Issue} {a : String}

variable (hiso : m.config.strategy = .isolated)

include hiso

variable (hname : issue.identifier = some a)

include hname

theorem workspacePath_isolated (ha : a ≠ "") :
    m.workspacePath issue = joinPath m.root (safeIdentifier a) := by
  simp [workspacePath, hiso, buildPath, Issue.name, given, hname, ha, Option.filter]

/-- A proper name leads to a child of the root. -/
theorem workspacePath_proper (ha : a ≠ "") (hpr : ProperName a) :
    m.workspacePath issue = m.root ++ [safeIdentifier a] ∧ ".." ∉ m.workspacePath issue := by
  have hdot : safeIdentifier a ≠ "." := fun h =>
    hpr.1 ((safeIdentifier_eq_dots ha (by simp)).mp h)
  have hdo : safeIdentifier a ≠ ".." := fun h =>
    hpr.2 ((safeIdentifier_eq_dots ha (by simp)).mp h)
  rw [workspacePath_isolated hiso hname ha]
  simp [joinPath, hdot, m.resolved, hdo.symm]

theorem workspaceDir_proper (ha : a ≠ "") (hpr : ProperName a) :
    m.workspaceDir issue = m.root ++ [safeIdentifier a] := by
  obtain ⟨hpa, hpl⟩ := workspacePath_proper hiso hname ha hpr
  rw [workspaceDir, resolve_plain hpl, hpa]

/-- The identifiers `.` and `..` lead to the root and to its parent. -/
theorem workspaceDir_improper (ha : a ≠ "") (hpr : ¬ ProperName a) :
    m.workspaceDir issue <+: m.root := by
  have hca : a = "." ∨ a = ".." := by
    by_contra hno
    exact hpr (not_or.mp hno)
  rw [workspaceDir, workspacePath_isolated hiso hname ha]
  rcases hca with rfl | rfl
  · have hsa : safeIdentifier "." = "." := by decide
    rw [hsa, joinPath, if_pos rfl, resolve_plain m.resolved]
  · have hsa : safeIdentifier ".." = ".." := by decide
    rw [hsa, joinPath, if_neg (by decide), resolve, foldl_append, foldl_enter_plain m.resolved]
    simpa [enter] using dropLast_prefix m.root

omit hname

omit hiso

/-! ## Operations on one workspace -/

inductive Operation where
  | create
  | cleanup (endStatus endReason : Option String) (texts : Preservation)

/-- The tree an operation leaves, whether it returns or raises. -/
def perform (m : WorkspaceManager) (host : Host) (issue : Issue) (t : FileTree) :
    Operation → FileTree
  | .create => (m.createForIssue host issue).after t
  | .cleanup endStatus endReason texts => (m.cleanup host issue endStatus endReason texts).after t

def performAll (m : WorkspaceManager) (host : Host) (issue : Issue) (ops : List Operation)
    (t : FileTree) : FileTree :=
  ops.foldl (m.perform host issue) t

theorem kept_perform {host : Host} (hpl : ".." ∉ m.workspacePath issue) (op : Operation)
    (t : FileTree) : KeptOutside (m.workspaceDir issue) t (m.perform host issue t op) := by
  rw [workspaceDir, resolve_plain hpl]
  rcases op with _ | ⟨endStatus, endReason, texts⟩
  · exact respects_createForIssue m issue hpl t
  · exact respects_cleanup m issue hpl endStatus endReason texts t

theorem kept_performAll {host : Host} (hpl : ".." ∉ m.workspacePath issue)
    (ops : List Operation) (t : FileTree) :
    KeptOutside (m.workspaceDir issue) t (m.performAll host issue ops t) := by
  induction ops generalizing t with
  | nil => exact refl_of _ t
  | cons op rest ih => exact trans_of _ (kept_perform hpl op t) (ih _)

theorem root_prefix (issue : Issue) : m.root <+: m.workspacePath issue := by
  unfold workspacePath buildPath joinPath
  split
  · split
    · exact prefix_rfl
    · exact prefix_append _ _
  · exact prefix_rfl

end WorkspaceManager

/-! ## Isolation -/

/-- `p` lies below `root` and is not `root` itself. -/
def StrictlyBelow (root p : Path) : Prop := root <+: p ∧ p ≠ root

variable (m : WorkspaceManager) (host : Host) (x y : Issue)

/-- The workspace of `x` lies inside the root, and working on it leaves everything
outside of it alone, the workspace of `y` in particular. -/
structure Secluded : Prop where
  below : StrictlyBelow m.root (m.workspaceDir x)
  contained : ∀ ops t, KeptOutside (m.workspaceDir x) t (m.performAll host x ops t)
  spares : ∀ ops t p, m.workspaceDir y <+: p → (m.performAll host x ops t).node p = t.node p

structure Isolated : Prop where
  distinct : m.workspaceDir x ≠ m.workspaceDir y
  left : Secluded m host x y
  right : Secluded m host y x

variable {m : WorkspaceManager} {host : Host} {x y : Issue} {a b : String}

/-- What lies in one child of the root lies neither in another one nor above it. -/
theorem siblings_apart {root p : Path} {u v : String} (huv : u ≠ v) (hp : root ++ [v] <+: p) :
    ¬ root ++ [u] <+: p ∧ ¬ p <+: root ++ [u] := by
  have hap : ¬ root ++ [v] <+: root ++ [u] := by
    intro h
    have heq : root ++ [v] = root ++ [u] := h.eq_of_length (by simp)
    exact huv (by simpa using heq.symm)
  constructor
  · intro hu
    have heq : root ++ [u] = root ++ [v] :=
      (prefix_of_prefix_length_le hu hp (by simp)).eq_of_length (by simp)
    exact huv (by simpa using heq)
  · intro hu
    exact hap (hp.trans hu)

theorem secluded_of_proper (hiso : m.config.strategy = .isolated)
    (hx : x.identifier = some a) (hy : y.identifier = some b) (ha : a ≠ "") (hb : b ≠ "")
    (hpa : ProperName a) (hpb : ProperName b) (hne : safeIdentifier a ≠ safeIdentifier b) :
    Secluded m host x y where
  below := by
    rw [m.workspaceDir_proper hiso hx ha hpa]
    exact ⟨prefix_append _ _, by simp⟩
  contained := m.kept_performAll (m.workspacePath_proper hiso hx ha hpa).2
  spares := by
    intro ops t p hp
    have hke : KeptOutside (m.workspaceDir x) t (m.performAll host x ops t) :=
      m.kept_performAll (m.workspacePath_proper hiso hx ha hpa).2 ops t
    rw [m.workspaceDir_proper hiso hy hb hpb] at hp
    rw [m.workspaceDir_proper hiso hx ha hpa] at hke
    obtain ⟨hou, hno⟩ := siblings_apart hne hp
    rcases hke p hou with heq | ⟨hab, -, -⟩
    · exact heq
    · exact absurd hab hno

/-- Two issues are isolated from each other exactly when both identifiers are proper
names and the replacement of unsafe characters keeps them apart. -/
theorem isolated_iff_distinguishable (m : WorkspaceManager) (host : Host)
    (hiso : m.config.strategy = .isolated) (hx : x.identifier = some a)
    (hy : y.identifier = some b) (ha : a ≠ "") (hb : b ≠ "") :
    Isolated m host x y ↔ ProperName a ∧ ProperName b ∧ ¬ Confusable a b := by
  constructor
  · rintro ⟨hdi, hle, hri⟩
    have hpr : ∀ {z : Issue} {c : String}, z.identifier = some c → c ≠ "" →
        StrictlyBelow m.root (m.workspaceDir z) → ProperName c := by
      intro z c hz hc hbe
      by_contra him
      have hab := m.workspaceDir_improper hiso hz hc him
      exact hbe.2 (hab.eq_of_length (le_antisymm hab.length_le hbe.1.length_le))
    have hpa := hpr hx ha hle.below
    have hpb := hpr hy hb hri.below
    refine ⟨hpa, hpb, fun hco => hdi ?_⟩
    rw [m.workspaceDir_proper hiso hx ha hpa, m.workspaceDir_proper hiso hy hb hpb,
      (safeIdentifier_eq_iff ha hb).mpr hco]
  · rintro ⟨hpa, hpb, hap⟩
    have hne : safeIdentifier a ≠ safeIdentifier b := fun h =>
      hap ((safeIdentifier_eq_iff ha hb).mp h)
    refine ⟨?_, ?_, ?_⟩
    · rw [m.workspaceDir_proper hiso hx ha hpa, m.workspaceDir_proper hiso hy hb hpb]
      simpa using hne
    · exact secluded_of_proper hiso hx hy ha hb hpa hpb hne
    · exact secluded_of_proper hiso hy hx hb ha hpb hpa hne.symm

/-! ## A concrete root -/

/-- A host whose commands succeed and change nothing. -/
def idleHost : Host where
  run _ _ t := (t, .done 0 "")
  confined _ _ t := refl_of _ t
  pid := 1
  canSignal _ := true
  now := "0"

/-- A manager that removes every workspace it cleans up. -/
def sweepingManager : WorkspaceManager where
  config := { preserveOnTerminal := false }
  root := ["srv", "ws"]
  resolved := by decide

theorem isolated_numbered_issues :
    Isolated sweepingManager idleHost { identifier := some "ENG-1" } { identifier := some "ENG-2" } :=
  (isolated_iff_distinguishable sweepingManager idleHost rfl rfl rfl (by decide) (by decide)).mpr
    (by decide)

/-- A service directory with a file of its own and the workspace of the issue `a_b`. -/
def serviceTree : FileTree :=
  let top : FileTree := { node := fun _ => none, closed := by simp }
  let dirs := [[], ["srv"], ["srv", "ws"], ["srv", "ws", "a_b"]]
  let tree := dirs.foldl (fun t p => t.put p .dir) top
  (tree.put ["srv", "ws", "a_b", "notes"] (.file "work of a_b")).put
    ["srv", "data"] (.file "not a workspace")

/-- Cleaning up the issue `a/b` removes the work of the issue `a_b`, and cleaning up the
issue `..` removes what lies next to the root. -/
theorem cleanup_removes_foreign_files :
    let sweep := fun name => (sweepingManager.cleanup idleHost { identifier := some name }
      (some "completed") none { verify := none, readme := "", manifest := "" }).after serviceTree
    let notes : Path := ["srv", "ws", "a_b", "notes"]
    let data : Path := ["srv", "data"]
    sweepingManager.workspaceDir { identifier := some "a/b" } =
        sweepingManager.workspaceDir { identifier := some "a_b" } ∧
      serviceTree.node notes = some (.file "work of a_b") ∧ (sweep "a/b").node notes = none ∧
      serviceTree.node data = some (.file "not a workspace") ∧ (sweep "..").node data = none := by
  decide +kernel

end Orchestratord.Workspaces
