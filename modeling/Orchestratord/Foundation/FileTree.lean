import Orchestratord.Foundation.Effects

/-! # File trees

A file system without links: a map from absolute paths to nodes in which every entry
lies in a directory. Paths are lists of components and may hold `..`; the operations
resolve them by walking, as the operating system does.

`KeptOutside d` is the frame relation of the development: everything that is not at
or below `d` is as it was, except that missing ancestors of `d` may have been made. -/

namespace Orchestratord.Foundation

open List Function

abbrev Path := List String

inductive Node where
  | dir
  | file (content : String)
  deriving DecidableEq, Repr

inductive OsError where
  | notFound
  | notADirectory
  | isADirectory
  | alreadyExists
  | busy
  deriving DecidableEq, Repr

def OsError.text : OsError → String
  | .notFound => "No such file or directory"
  | .notADirectory => "Not a directory"
  | .isADirectory => "Is a directory"
  | .alreadyExists => "File exists"
  | .busy => "Device or resource busy"

structure FileTree where
  node : Path → Option Node
  /-- An entry exists only inside a directory. -/
  closed : ∀ p c, (node (p ++ [c])).isSome → node p = some .dir

namespace FileTree

/-- Go from `cur` to the entry called `c`. -/
def enter (cur : Path) (c : String) : Path := if c = ".." then cur.dropLast else cur ++ [c]

/-- Walk along `p` from the directory `cur`. Every component is looked up in a
directory; `..` leads to the parent, and the parent of the top is the top. -/
def walkFrom (t : FileTree) : Path → Path → Option Path
  | cur, [] => some cur
  | cur, c :: rest =>
    if t.node cur = some .dir then
      t.walkFrom (enter cur c) rest
    else none

variable (t : FileTree) (p : Path)

def walk : Option Path := t.walkFrom [] p

/-- Where `p` leads, if the directories on the way are there. -/
def resolve : Path := p.foldl enter []

/-- The node a path leads to. -/
def stat : Option Node := (t.walk p).bind t.node

def exists? : Bool := (t.stat p).isSome

def isDir : Bool := t.stat p = some .dir

/-- The tree without the entries that satisfy `dead`, a set closed under descent. -/
def prune (dead : Path → Bool)
    (descends : ∀ p c, dead p = true → dead (p ++ [c]) = true) : FileTree where
  node p := if dead p then none else t.node p
  closed := by
    intro p c hsome
    by_cases hchild : dead (p ++ [c]) = true
    · simp [hchild] at hsome
    · have hparent : dead p ≠ true := fun h => hchild (descends p c h)
      simp only [hchild, hparent] at hsome ⊢
      exact t.closed p c hsome

variable (r : Path)

/-- Remove `r` with everything below it. -/
def remove : FileTree :=
  t.prune (fun p => r.isPrefixOf p) (by
    intro p c h
    rw [List.isPrefixOf_iff_prefix] at h ⊢
    exact h.trans (prefix_append p [c]))

/-- Remove everything strictly below `r`. -/
def removeBelow : FileTree :=
  t.prune (fun p => r.isPrefixOf p && decide (p ≠ r)) (by
    intro p c h
    simp only [Bool.and_eq_true, isPrefixOf_iff_prefix, decide_eq_true_eq] at h ⊢
    refine ⟨h.1.trans (prefix_append p [c]), ?_⟩
    rintro rfl
    have hlen := h.1.length_le
    simp only [length_append, length_singleton] at hlen
    omega)

/-- Put a node at `r`. Nothing happens where a directory stands already or the
parent is no directory: the callers below raise before they come to that. -/
def put (n : Node) : FileTree :=
  if h : t.node r ≠ some .dir ∧ (r = [] ∨ t.node r.dropLast = some .dir) then
    { node := update t.node r (some n)
      closed := by
        intro p c hsome
        by_cases hr : p ++ [c] = r
        · subst hr
          have hdir : t.node p = some .dir := by simpa using h.2
          have hne : p ≠ p ++ [c] := by simp
          simpa [update_of_ne hne] using hdir
        · rw [update_of_ne hr] at hsome
          have hdir := t.closed p c hsome
          have hne : p ≠ r := by
            rintro rfl
            exact h.1 hdir
          rw [update_of_ne hne]
          exact hdir }
  else t

end FileTree

/-- Operations on the tree, with the errors of the operating system. -/
abbrev FsM := Eff OsError FileTree

namespace FsM

/-- Resolve a path and go on at the place it leads to. -/
def atPath {α : Type} (p : Path) (f : FileTree → Path → FsM α) : FsM α := do
  let t ← get
  match t.walk p with
  | none => throw .notFound
  | some r => f t r

variable (p : Path)

/-- Remove a file. -/
def unlink : FsM Unit :=
  atPath p fun t r =>
    match t.node r with
    | none => throw .notFound
    | some .dir => throw .isADirectory
    | some (.file _) => set (t.remove r)

/-- Remove a directory with its contents. The contents go first; the directory itself
cannot be removed under a name that ends in `..`, nor can the top. -/
def rmtree : FsM Unit :=
  atPath p fun t r =>
    match t.node r with
    | none => throw .notFound
    | some (.file _) => throw .notADirectory
    | some .dir =>
      if p.getLast? = some ".." ∨ r = [] then do
        set (t.removeBelow r)
        throw .busy
      else
        set (t.remove r)

/-- Make one directory; one that is there already is accepted. -/
def mkdirExistOk : FsM Unit :=
  atPath p fun t r =>
    match t.node r with
    | some .dir => pure ()
    | some (.file _) => throw .alreadyExists
    | none => set (t.put r .dir)

/-- Make a directory with its missing parents, from the top down. -/
def mkdirParents : FsM Unit := p.inits.forM mkdirExistOk

def readText : FsM String :=
  atPath p fun t r =>
    match t.node r with
    | none => throw .notFound
    | some .dir => throw .isADirectory
    | some (.file content) => pure content

/-- Write a file, making it when it is missing. -/
def writeText (content : String) : FsM Unit :=
  atPath p fun t r =>
    match t.node r with
    | some .dir => throw .isADirectory
    | _ => set (t.put r (.file content))

end FsM

/-! ## Where a walk leads -/

variable {t t' : FileTree} {p q r d : Path}

namespace FileTree

theorem walkFrom_eq_foldl {cur : Path} (hwa : t.walkFrom cur p = some r) :
    r = p.foldl enter cur := by
  induction p generalizing cur with
  | nil =>
    simp only [walkFrom, Option.some.injEq] at hwa
    exact hwa.symm
  | cons c rest ih =>
    simp only [walkFrom] at hwa
    split at hwa
    · exact ih hwa
    · exact absurd hwa (by simp)

theorem walk_eq_resolve (hwa : t.walk p = some r) : r = resolve p := walkFrom_eq_foldl hwa

theorem foldl_enter_plain (hpl : ".." ∉ p) (cur : Path) : p.foldl enter cur = cur ++ p := by
  induction p generalizing cur with
  | nil => simp
  | cons c rest ih =>
    have hc : c ≠ ".." := fun h => hpl (by simp [h])
    have hre : ".." ∉ rest := fun h => hpl (mem_cons_of_mem c h)
    rw [foldl_cons, ih hre]
    simp [enter, hc]

theorem resolve_plain (hpl : ".." ∉ p) : resolve p = p := by
  simpa [resolve] using foldl_enter_plain hpl []

end FileTree

/-! ## The frame relation -/

/-- Outside of `d` the tree is unchanged, but for ancestors of `d` that were missing
and are directories now. -/
def KeptOutside (d : Path) (t t' : FileTree) : Prop :=
  ∀ p, ¬ d <+: p → t'.node p = t.node p ∨ (p <+: d ∧ t.node p = none ∧ t'.node p = some .dir)

instance (d : Path) : IsPreorder FileTree (KeptOutside d) where
  refl _ _ _ := .inl rfl
  trans t t' t'' h h' p hp := by
    rcases h p hp with heq | ⟨hab, hno, hdir⟩
    · rw [← heq]
      exact h' p hp
    rcases h' p hp with heq' | ⟨-, hno', -⟩
    · exact .inr ⟨hab, hno, heq'.trans hdir⟩
    · rw [hdir] at hno'
      exact absurd hno' (by simp)

namespace KeptOutside

theorem prune {dead : Path → Bool} {descends} (hde : ∀ p, dead p = true → d <+: p) :
    KeptOutside d t (t.prune dead descends) := by
  intro p hp
  have hli : dead p ≠ true := fun h => hp (hde p h)
  exact .inl (by simp [FileTree.prune, hli])

theorem remove (hr : d <+: r) : KeptOutside d t (t.remove r) := by
  apply prune
  intro p hp
  exact hr.trans (List.isPrefixOf_iff_prefix.mp hp)

theorem removeBelow (hr : d <+: r) : KeptOutside d t (t.removeBelow r) := by
  apply prune
  intro p hp
  simp only [Bool.and_eq_true] at hp
  exact hr.trans (List.isPrefixOf_iff_prefix.mp hp.1)

theorem put (hr : d <+: r) (n : Node) : KeptOutside d t (t.put r n) := by
  intro p hp
  have hne : p ≠ r := by
    rintro rfl
    exact hp hr
  refine .inl ?_
  unfold FileTree.put
  split
  · simp [update_of_ne hne]
  · rfl

/-- A missing ancestor may become a directory. -/
theorem put_above (hr : r <+: d) (hno : t.node r = none) : KeptOutside d t (t.put r .dir) := by
  intro p _
  unfold FileTree.put
  split
  · by_cases hpr : p = r
    · subst hpr
      exact .inr ⟨hr, hno, by simp⟩
    · exact .inl (by simp [update_of_ne hpr])
  · exact .inl rfl

theorem mono {d' : Path} (hd : d' <+: d) (h : KeptOutside d t t') : KeptOutside d' t t' := by
  intro p hp
  rcases h p fun hin => hp (hd.trans hin) with heq | ⟨hab, hno⟩
  · exact .inl heq
  · have hor := prefix_or_prefix_of_prefix hab hd
    exact .inr ⟨hor.resolve_right hp, hno⟩

end KeptOutside

/-! ## The operations on a path at or below `d` stay inside `d` -/

namespace FsM

theorem respects_atPath {α : Type} {f : FileTree → Path → FsM α} (hpl : ".." ∉ p)
    (hf : ∀ t, KeptOutside d t ((f t p).after t)) : Respects (KeptOutside d) (atPath p f) := by
  intro t
  cases hwa : t.walk p with
  | none =>
    have hsa : (atPath p f).after t = t := by
      simp [atPath, Eff.after, Eff.exec_bind, hwa]
    rw [hsa]
    exact refl_of _ t
  | some r =>
    have hr : r = p := (FileTree.walk_eq_resolve hwa).trans (FileTree.resolve_plain hpl)
    subst hr
    have hrun : (atPath r f).after t = (f t r).after t := by
      simp [atPath, Eff.after, Eff.exec_bind, hwa]
    rw [hrun]
    exact hf t

theorem respects_unlink (hpl : ".." ∉ p) (hd : d <+: p) : Respects (KeptOutside d) (unlink p) := by
  apply respects_atPath hpl
  intro t
  split
  · exact refl_of _ t
  · exact refl_of _ t
  · exact .remove hd

theorem respects_rmtree (hpl : ".." ∉ p) (hd : d <+: p) : Respects (KeptOutside d) (rmtree p) := by
  apply respects_atPath hpl
  intro t
  split
  · exact refl_of _ t
  · exact refl_of _ t
  · split
    · exact .removeBelow hd
    · exact .remove hd

theorem respects_readText (p d : Path) : Respects (KeptOutside d) (readText p) := by
  refine .bind .get fun t => ?_
  split
  · exact .throw _
  dsimp only
  split
  · exact .throw _
  · exact .throw _
  · exact .pure _

theorem respects_writeText (content : String) (hpl : ".." ∉ p) (hd : d <+: p) :
    Respects (KeptOutside d) (writeText p content) := by
  apply respects_atPath hpl
  intro t
  split
  · exact refl_of _ t
  · exact .put hd _

/-- A directory may be made below `d`, at `d`, or above it. -/
theorem respects_mkdirExistOk (hpl : ".." ∉ p) (hd : d <+: p ∨ p <+: d) :
    Respects (KeptOutside d) (mkdirExistOk p) := by
  apply respects_atPath hpl
  intro t
  split
  · exact refl_of _ t
  · exact refl_of _ t
  next hno =>
  rcases hd with hbe | hab
  · exact .put hbe _
  · exact .put_above hab hno

theorem respects_mkdirParents (hpl : ".." ∉ p) (hd : d <+: p ∨ p <+: d) :
    Respects (KeptOutside d) (mkdirParents p) := by
  apply Respects.forM
  intro q hq
  have hqp : q <+: p := (mem_inits q p).mp hq
  apply respects_mkdirExistOk (fun h => hpl (hqp.subset h))
  rcases hd with hbe | hab
  · exact prefix_or_prefix_of_prefix hbe hqp
  · exact .inr (hqp.trans hab)

end FsM

end Orchestratord.Foundation
