import Orchestratord.Foundation.Runs
import Orchestratord.Workflow.Rollback

/-!
# What a rollback brings back

A snapshot holds files and directories of files, none of them hidden. So a restored workspace is
the saved one only where the saved one had this shape, nothing of an earlier snapshot of the
stage was left behind, and there was nothing in the workspace that the clearing takes away and
the snapshot leaves out.
-/

namespace Orchestratord.Workflow

open Foundation RollbackManager Dict Option Function
open List hiding lookup

/-! ## §1 Looking up a path -/

inductive Kind where
  | file (content : String)
  | special
  | dir
deriving DecidableEq

def Entry.kind : Entry → Kind
  | .file content => .file content
  | .special => .special
  | .dir _ => .dir

/-- What is found below an entry. -/
def Entry.look : List String → Entry → Option Kind
  | [], entry => some entry.kind
  | name :: path, .dir entries => (entries name).bind (look path)
  | _ :: _, .file _ | _ :: _, .special => none

/-- What is found at a path of the workspace. -/
def look (tree : Tree) : List String → Option Kind
  | [] => some .dir
  | name :: path => (tree.get name).bind (Entry.look path)

/-- Entries that a snapshot is not meant to hold: what has a hidden name on its path, and
special files. -/
def Excluded (saved : Tree) (path : List String) : Prop :=
  (∃ name ∈ path, isHidden name = true) ∨ ∃ above, above <+: path ∧ look saved above = some .special

/-- The workspace is the saved one, and what is excluded is as it was before. -/
def Restored (saved before after : Tree) : Prop :=
  ∀ path, (Excluded saved path → look after path = look before path) ∧
    (¬ Excluded saved path → look after path = look saved path)

/-! ## §2 The shape of a snapshot -/

inductive PlainEntry : Entry → Prop
  | file (content : String) : PlainEntry (.file content)
  | dir (entries : String → Option Entry) (hfiles : ∀ name entry, entries name = some entry →
        isHidden name = false ∧ ∃ content, entry = .file content) : PlainEntry (.dir entries)

def Plain (tree : Tree) : Prop :=
  ∀ name entry, tree.get name = some entry → isHidden name = false ∧ PlainEntry entry

theorem plain_empty : Plain .empty := by
  rintro _ _ ⟨⟩

variable {name : String} {entry : Entry} {tree : Tree}

theorem Plain.set (hpl : Plain tree)
    (hna : isHidden name = false) (hen : PlainEntry entry) : Plain (tree.set name entry) := by
  intro other found h
  rw [get_set] at h
  split at h
  case isTrue heq =>
    cases h
    exact ⟨heq ▸ hna, hen⟩
  · exact hpl other found h

variable {entries : String → Option Entry}

theorem copyVisible_eq_some : copyVisible entries name = some entry ↔
      entries name = some entry ∧ isHidden name = false ∧ ∃ content, entry = .file content := by
  unfold copyVisible
  rw [filter_eq_some_iff]
  refine and_congr_right fun _ => ?_
  unfold snapshotIgnore
  cases isHidden name <;> cases entry <;> simp [isRegularFile]

theorem plainEntry_copyVisible (entries : String → Option Entry) :
    PlainEntry (.dir (copyVisible entries)) :=
  .dir _ fun _ _ h => (copyVisible_eq_some.mp h).2

/-! ## §3 One entry -/

/-- What the snapshot holds under a name after the entry of the workspace has been copied to
what it held before. -/
def placed (name : String) (saved old : Option Entry) : Option Entry :=
  match saved with
  | none | some .special => old
  | some (.dir entries) => some (.dir (copyVisible entries))
  | some (.file content) =>
    match old with
    | some (.dir entries) => some (.dir (update entries name (some (.file content))))
    | _ => some (.file content)

/-- A directory cannot be copied to where a file is. -/
def Clash (saved old : Option Entry) : Prop :=
  ∃ entries content, saved = some (.dir entries) ∧ old = some (.file content)

variable {dest : Tree}

theorem copyItem_spec (hpl : Plain dest) (hna : isHidden name = false)
    (entry : Entry) : (copyItem dest name entry = none ∧ Clash (some entry) (dest.get name)) ∨
      (¬ Clash (some entry) (dest.get name) ∧ ∃ dest', copyItem dest name entry = some dest' ∧
        Plain dest' ∧ ∀ other, dest'.get other =
          if other = name then placed name (some entry) (dest.get name) else dest.get other) := by
  have hset : ∀ e, copyItem dest name entry = some (dest.set name e) → PlainEntry e →
      placed name (some entry) (dest.get name) = some e →
      ∃ dest', copyItem dest name entry = some dest' ∧ Plain dest' ∧ ∀ other, dest'.get other =
        if other = name then placed name (some entry) (dest.get name) else dest.get other := by
    intro e hco he hpd
    refine ⟨dest.set name e, hco, hpl.set hna he, fun other => ?_⟩
    rw [get_set, hpd]
  cases entry with
  | special =>
    refine .inr ⟨by rintro ⟨_, _, ⟨⟩, _⟩, dest, rfl, hpl, fun other => ?_⟩
    split
    case isTrue heq => exact heq ▸ rfl
    · rfl
  | dir entries =>
    cases hold : dest.get name with
    | none =>
      refine .inr ⟨by rintro ⟨_, _, _, ⟨⟩⟩, hset _ ?_ (plainEntry_copyVisible entries) rfl⟩
      simp only [copyItem, hold]
    | some old =>
      cases (hpl name old hold).2 with
      | file content => exact .inl ⟨by simp only [copyItem, hold], entries, content, rfl, rfl⟩
      | dir =>
        refine .inr ⟨by rintro ⟨_, _, _, ⟨⟩⟩, hset _ ?_ (plainEntry_copyVisible entries) rfl⟩
        simp only [copyItem, hold]
  | file content =>
    refine .inr ⟨by rintro ⟨_, _, ⟨⟩, _⟩, ?_⟩
    cases hold : dest.get name with
    | none =>
      rw [hold] at hset
      exact hset _ (by simp only [copyItem, hold]) (.file content) rfl
    | some old =>
      rw [hold] at hset
      rcases (hpl name old hold).2 with _ | ⟨oldEntries, hfi⟩
      · exact hset _ (by simp only [copyItem, hold]) (.file content) rfl
      -- the file goes into the old directory, which stays one of files
      have hir : PlainEntry (.dir (update oldEntries name (some (.file content)))) := by
        refine .dir _ fun other found h => ?_
        by_cases heq : other = name
        · subst heq
          rw [update_self] at h
          cases h
          exact ⟨hna, content, rfl⟩
        · rw [update_of_ne heq] at h
          exact hfi other found h
      refine hset _ ?_ hir rfl
      simp only [copyItem, hold]
      cases hin : oldEntries name with
      | none => rfl
      | some found =>
        obtain ⟨-, _, rfl⟩ := hfi name found hin
        rfl

/-! ## §4 The loops -/

theorem dest_add (c : Copied) (dest : Tree) (name : String) (entry : Entry) :
    (c.add dest name entry).dest = dest := by
  cases entry <;> rfl

/-- What the loop leaves in the snapshot `old`. -/
structure CopySpec (saved : List (String × Entry)) (old : Tree) (result : Tree × Bool) : Prop where
  plain : Plain result.1
  /-- What is not copied leaves the snapshot as it is. -/
  kept : ∀ name, lookup name saved = none ∨ lookup name saved = some .special →
    result.1.get name = old.get name
  /-- The loop comes to its end unless there is a clash, -/
  complete : result.2 = true → ∀ name, isHidden name = false →
    ¬ Clash (lookup name saved) (old.get name) ∧
      result.1.get name = placed name (lookup name saved) (old.get name)
  /-- and at a clash it stops. -/
  stopped : result.2 = false → ∃ name, isHidden name = false ∧
    Clash (lookup name saved) (old.get name) ∧ result.1.get name = old.get name

variable {old : Tree}

theorem CopySpec.nil (hpl : Plain old) : CopySpec [] old (old, true) where
  plain := hpl
  kept _ _ := rfl
  complete _ name _ := ⟨by rintro ⟨_, _, ⟨⟩, _⟩, rfl⟩
  stopped h := by cases h

variable {result : Tree × Bool}

section

variable {rest : List (String × Entry)}

theorem lookup_cons_ne {other : String} (hne : other ≠ name) :
    lookup other ((name, entry) :: rest) = lookup other rest := by
  simp [lookup, symm hne]

theorem lookup_cons_self : lookup name ((name, entry) :: rest) = some entry := by
  simp [lookup]

/-- An entry that is passed over. -/
theorem CopySpec.skip (hna : isHidden name = true) (hfr : name ∉ rest.map Prod.fst)
    (h : CopySpec rest old result) : CopySpec ((name, entry) :: rest) old result := by
  have hvi : ∀ other, isHidden other = false → other ≠ name := by
    rintro _ hot rfl
    rw [hna] at hot
    cases hot
  refine ⟨h.plain, ?_, ?_, ?_⟩
  · intro other hot
    by_cases heq : other = name
    · subst heq
      exact h.kept other (.inl (lookup_eq_none.mpr hfr))
    · rw [lookup_cons_ne heq] at hot
      exact h.kept other hot
  · intro hend other hot
    rw [lookup_cons_ne (hvi other hot)]
    exact h.complete hend other hot
  · intro hend
    obtain ⟨other, hot, _, hsa⟩ := h.stopped hend
    exact ⟨other, hot, by rwa [lookup_cons_ne (hvi other hot)], hsa⟩

/-- An entry that clashes. -/
theorem CopySpec.stop (hna : isHidden name = false) (hpl : Plain old)
    (hcl : Clash (some entry) (old.get name)) :
    CopySpec ((name, entry) :: rest) old (old, false) where
  plain := hpl
  kept _ _ := rfl
  complete h := by cases h
  stopped _ := ⟨name, hna, by rwa [lookup_cons_self], rfl⟩

/-- An entry that is copied. -/
theorem CopySpec.copy (hfr : name ∉ rest.map Prod.fst)
    (hcl : ¬ Clash (some entry) (old.get name)) (hde : ∀ other, dest.get other =
      if other = name then placed name (some entry) (old.get name) else old.get other)
    (h : CopySpec rest dest result) : CopySpec ((name, entry) :: rest) old result := by
  have hse : result.1.get name = placed name (some entry) (old.get name) := by
    rw [h.kept name (.inl (lookup_eq_none.mpr hfr)), hde, if_pos rfl]
  have hot : ∀ other, other ≠ name → dest.get other = old.get other := by
    intro _ hne
    rw [hde, if_neg hne]
  refine ⟨h.plain, ?_, ?_, ?_⟩
  · intro other hsk
    by_cases heq : other = name
    · subst heq
      rw [lookup_cons_self] at hsk
      rw [hse]
      rcases hsk with hno | hsp
      · cases hno
      · cases hsp
        rfl
    · rw [lookup_cons_ne heq] at hsk
      rw [h.kept other hsk, hot other heq]
  · intro hend other hvi
    by_cases heq : other = name
    · subst heq
      rw [lookup_cons_self]
      exact ⟨hcl, hse⟩
    · rw [lookup_cons_ne heq, ← hot other heq]
      exact h.complete hend other hvi
  · intro hend
    obtain ⟨other, hvi, hcl', hsa⟩ := h.stopped hend
    have heq : other ≠ name := by
      rintro rfl
      obtain ⟨_, _, hfo, -⟩ := hcl'
      rw [lookup_eq_none.mpr hfr] at hfo
      cases hfo
    rw [hot other heq] at hcl' hsa
    exact ⟨other, hvi, by rwa [lookup_cons_ne heq], hsa⟩

end

theorem copyLoop_spec {entries : List (String × Entry)} (hno : (entries.map Prod.fst).Nodup)
    (c : Copied) (hpl : Plain c.dest) :
    CopySpec entries c.dest ((copyLoop entries c).1.dest, (copyLoop entries c).2) := by
  induction entries generalizing c with
  | nil => exact .nil hpl
  | cons first _ ih =>
    obtain ⟨name, entry⟩ := first
    obtain ⟨hfr, hre⟩ := nodup_cons.mp hno
    unfold copyLoop
    split
    case isTrue hown =>
      have hhi : isHidden name = true := by rw [hown]; decide
      exact .skip hhi hfr (ih hre c hpl)
    split
    case isTrue hhi => exact .skip hhi hfr (ih hre c hpl)
    rename_i hhi
    have hna : isHidden name = false := by simpa using hhi
    rcases copyItem_spec hpl hna entry with
      ⟨hco, hcl⟩ | ⟨hcl, dest, hco, hde, hds⟩
    · rw [hco]
      exact .stop hna hpl hcl
    rw [hco]
    have hrec := ih hre (c.add dest name entry) (by rwa [dest_add])
    rw [dest_add] at hrec
    exact .copy hfr hcl hds hrec

/-- A snapshot is pasted whole: it has no special files. -/
theorem pasteLoop_spec {entries : List (String × Entry)} (hno : (entries.map Prod.fst).Nodup)
    (hpl : ∀ e ∈ entries, PlainEntry e.2) (tree : Tree) :
    (pasteLoop entries tree).2 = true ∧ ∀ name, (pasteLoop entries tree).1.get name =
      (lookup name entries).or (tree.get name) := by
  induction entries generalizing tree with
  | nil => exact ⟨rfl, fun _ => rfl⟩
  | cons first rest ih =>
    obtain ⟨name, entry⟩ := first
    obtain ⟨hfr, hre⟩ := nodup_cons.mp hno
    have hlo : pasteLoop ((name, entry) :: rest) tree = pasteLoop rest (tree.set name entry) := by
      cases hpl (name, entry) mem_cons_self with
      | file | dir => rfl
    obtain ⟨hend, hget⟩ := ih hre (fun e he => hpl e (mem_cons_of_mem _ he)) (tree.set name entry)
    rw [hlo]
    refine ⟨hend, fun other => ?_⟩
    rw [hget, get_set]
    by_cases heq : other = name
    · subst heq
      rw [lookup_cons_self, lookup_eq_none.mpr hfr, if_pos rfl]
      rfl
    · rw [lookup_cons_ne heq, if_neg heq]

/-! ## §5 When a snapshot gives the workspace back -/

/-- A special file lies on the path. -/
def SpecialAbove (entry : Option Entry) (path : List String) : Prop :=
  ∃ above, above <+: path ∧ entry.bind (Entry.look above) = some .special

theorem specialAbove_special (path : List String) : SpecialAbove (some .special) path :=
  ⟨[], nil_prefix, rfl⟩

theorem not_specialAbove_none (path : List String) : ¬ SpecialAbove none path := by
  rintro ⟨_, _, ⟨⟩⟩

theorem not_specialAbove_file (content : String) (path : List String) :
    ¬ SpecialAbove (some (.file content)) path := by
  rintro ⟨above, -, h⟩
  cases above with
  | nil | cons => cases h

variable {path : List String}

theorem specialAbove_dir : SpecialAbove (some (.dir entries)) path ↔
      ∃ name rest, path = name :: rest ∧ SpecialAbove (entries name) rest := by
  constructor
  · rintro ⟨above, hpr, h⟩
    cases above with
    | nil => cases h
    | cons name above =>
      obtain ⟨rest, rfl⟩ := hpr
      exact ⟨name, above ++ rest, rfl, above, prefix_append above rest, h⟩
  · rintro ⟨name, _, rfl, above, hpr, h⟩
    exact ⟨name :: above, cons_prefix_cons.mpr ⟨rfl, hpr⟩, h⟩

theorem excluded_cons {saved : Tree} : Excluded saved (name :: path) ↔
      (∃ n ∈ name :: path, isHidden n = true) ∨ SpecialAbove (saved.get name) path := by
  refine or_congr_right ⟨?_, ?_⟩
  · rintro ⟨above, hpr, h⟩
    cases above with
    | nil => cases h
    | cons _ above =>
      obtain ⟨rfl, hbe⟩ := cons_prefix_cons.mp hpr
      exact ⟨above, hbe, h⟩
  · rintro ⟨above, hpr, h⟩
    exact ⟨name :: above, cons_prefix_cons.mpr ⟨rfl, hpr⟩, h⟩

theorem look_plain_hidden (hpl : Plain tree)
    (hhi : ∃ name ∈ path, isHidden name = true) : look tree path = none := by
  obtain ⟨name, hmem, hna⟩ := hhi
  rcases path with _ | ⟨first, rest⟩
  · cases hmem
  rw [look]
  rcases hget : tree.get first with _ | entry
  · rfl
  obtain ⟨hfi, hen⟩ := hpl first entry hget
  -- the hidden name is further down, and there are files only
  have hre : name ∈ rest := by
    refine (mem_cons.mp hmem).resolve_left ?_
    rintro rfl
    rw [hna] at hfi
    cases hfi
  cases rest with
  | nil => cases hre
  | cons second below =>
    cases hen with
    | file => rfl
    | dir entries hfl =>
      rw [bind_some, Entry.look]
      cases hin : entries second with
      | none => rfl
      | some inner =>
        obtain ⟨hse, _, rfl⟩ := hfl second inner hin
        cases below with
        | nil =>
          rw [mem_singleton] at hre
          rw [← hre, hna] at hse
          cases hse
        | cons => rfl

/-- What a name of the workspace must be at the save, and what an earlier snapshot of the stage
and the workspace before the restore may hold there. -/
def Fits (name : String) (saved old : Option Entry) (before : Tree) : Prop :=
  match saved with
  | none => old = none
  | some .special => ∀ path, look before (name :: path) = old.bind (Entry.look path)
  | some (.file _) => ∀ entries, old ≠ some (.dir entries)
  | some (.dir entries) =>
    (∀ content, old ≠ some (.file content)) ∧ ∀ inner, isHidden inner = false →
      (∀ below, entries inner ≠ some (.dir below)) ∧
      (entries inner = some .special → ∀ path, look before (name :: inner :: path) = none)

/-- Nothing hidden is in the way of the clearing, and every visible name fits. -/
def Faithful (saved old before : Tree) : Prop :=
  (∀ path, path.head? ≠ some snapshotsName → (∃ name ∈ path, isHidden name = true) →
    look before path = none) ∧
  ∀ name, isHidden name = false → Fits name (saved.get name) (old.get name) before

variable {before snapshot : Tree}

section

variable {saved after : Tree}

/-- The workspace after a restore. -/
def Pasted (before snapshot after : Tree) : Prop :=
  ∀ name, after.get name = if name = snapshotsName then before.get name else snapshot.get name

theorem Pasted.look_cons (h : Pasted before snapshot after)
    (hna : name ≠ snapshotsName) (path : List String) :
    look after (name :: path) = (snapshot.get name).bind (Entry.look path) := by
  rw [look, h, if_neg hna]

theorem ne_snapshotsName (hna : isHidden name = false) : name ≠ snapshotsName := by
  rintro rfl
  exact absurd hna (by decide)

/-- What is excluded for a special file on its path must be as it was, -/
theorem Restored.untouched (hre : Restored saved before after)
    (hpasted : Pasted before result.1 after) (hna : isHidden name = false) (path : List String)
    (hsp : SpecialAbove (saved.get name) path) :
    (result.1.get name).bind (Entry.look path) = look before (name :: path) := by
  rw [← hpasted.look_cons (ne_snapshotsName hna)]
  exact (hre (name :: path)).1 (excluded_cons.mpr (.inr hsp))

/-- and what is not excluded must be as it was saved. -/
theorem Restored.broughtBack (hre : Restored saved before after)
    (hpasted : Pasted before result.1 after) (hna : isHidden name = false) (path : List String)
    (hpa : ∀ n ∈ path, isHidden n = false) (hsp : ¬ SpecialAbove (saved.get name) path) :
    (result.1.get name).bind (Entry.look path) = (saved.get name).bind (Entry.look path) := by
  rw [← hpasted.look_cons (ne_snapshotsName hna)]
  refine (hre (name :: path)).2 ?_
  rw [excluded_cons, not_or]
  refine ⟨?_, hsp⟩
  rintro ⟨n, hmem, hn⟩
  have hvi : isHidden n = false := (mem_cons.mp hmem).elim (fun h => h ▸ hna) (hpa n)
  rw [hn] at hvi
  cases hvi

theorem not_specialAbove_dir_nil (entries : String → Option Entry) :
    ¬ SpecialAbove (some (.dir entries)) [] := by
  rw [specialAbove_dir]
  rintro ⟨_, _, ⟨⟩, _⟩

variable {inner : String}

theorem not_specialAbove_dir_dir {below : String → Option Entry}
    (h : entries inner = some (.dir below)) : ¬ SpecialAbove (some (.dir entries)) [inner] := by
  rw [specialAbove_dir]
  rintro ⟨_, _, heq, hsp⟩
  cases heq
  rw [h] at hsp
  exact not_specialAbove_dir_nil below hsp

/-- What is no file is not copied. -/
theorem copyVisible_eq_none
    (h : ∀ content, entries inner ≠ some (.file content)) : copyVisible entries inner = none := by
  refine eq_none_iff_forall_ne_some.mpr fun entry hen => ?_
  obtain ⟨hin, -, content, rfl⟩ := copyVisible_eq_some.mp hen
  exact h content hin

variable (hspec : CopySpec saved.entries old result)

include hspec

variable (hpasted : Pasted before result.1 after)

include hpasted

theorem complete_of_restored (hre : Restored saved before after) : result.2 = true := by
  cases hend : result.2 with
  | true => rfl
  | false =>
    obtain ⟨name, hna, ⟨entries, _, hdir, hfi⟩, hsa⟩ := hspec.stopped hend
    have hdir : saved.get name = some (.dir entries) := hdir
    have hba := hre.broughtBack hpasted hna [] (by simp) (hdir ▸ not_specialAbove_dir_nil entries)
    rw [hsa, hfi, hdir] at hba
    cases hba

theorem fits_of_restored (hre : Restored saved before after) (hna : isHidden name = false) :
    Fits name (saved.get name) (old.get name) before := by
  obtain ⟨hcl, hpd⟩ : ¬ Clash (saved.get name) (old.get name) ∧
      result.1.get name = placed name (saved.get name) (old.get name) :=
    hspec.complete (complete_of_restored hspec hpasted hre) name hna
  have hun := hre.untouched hpasted hna
  have hba := hre.broughtBack hpasted hna
  rw [hpd] at hun hba
  generalize saved.get name = entry at hun hba hcl ⊢
  cases entry with
  | none =>
    have hno := hba [] (by simp) (not_specialAbove_none [])
    cases hold : old.get name with
    | none => rfl
    | some =>
      rw [hold] at hno
      cases hno
  | some entry =>
    cases entry with
    | special =>
      intro path
      exact (hun path (specialAbove_special path)).symm
    | file content =>
      intro _ hold
      have hfi := hba [] (by simp) (not_specialAbove_file content [])
      rw [hold] at hfi
      cases hfi
    | dir entries =>
      refine ⟨fun content hold => hcl ⟨entries, content, rfl, hold⟩, fun inner hir => ?_⟩
      constructor
      · intro _ hbe
        have hlo := hba [inner] (by simpa using hir) (not_specialAbove_dir_dir hbe)
        have hno : copyVisible entries inner = none := copyVisible_eq_none (by simp [hbe])
        simp [placed, Entry.look, hno, hbe] at hlo
      · intro hsp path
        have hno : copyVisible entries inner = none := copyVisible_eq_none (by simp [hsp])
        have hab : SpecialAbove (some (.dir entries)) (inner :: path) :=
          specialAbove_dir.mpr ⟨inner, path, rfl, hsp ▸ specialAbove_special path⟩
        rw [← hun (inner :: path) hab]
        simp [placed, Entry.look, hno]

theorem faithful_of_restored (hre : Restored saved before after) : Faithful saved old before := by
  refine ⟨fun path hhe hhi => ?_, fun name => fits_of_restored hspec hpasted hre⟩
  cases path with
  | nil =>
    obtain ⟨_, hmem, _⟩ := hhi
    cases hmem
  | cons name rest =>
    have hna : name ≠ snapshotsName := fun h => hhe (by rw [h]; rfl)
    rw [← (hre (name :: rest)).1 (.inl hhi), hpasted.look_cons hna]
    exact look_plain_hidden hspec.plain hhi

omit hpasted in
theorem complete_of_faithful (hfa : Faithful saved old before) : result.2 = true := by
  cases hend : result.2 with
  | true => rfl
  | false =>
    obtain ⟨name, hna, ⟨entries, content, hdir, hfl⟩, -⟩ := hspec.stopped hend
    have hfi := hfa.2 name hna
    have hdir : saved.get name = some (.dir entries) := hdir
    rw [hdir] at hfi
    exact absurd hfl (hfi.1 content)

omit hpasted in
omit hspec in
/-- A name that fits is brought back. -/
theorem look_of_fits {entry oldEntry : Option Entry} (hfi : Fits name entry oldEntry before)
    (hpa : ∀ n ∈ path, isHidden n = false) : (SpecialAbove entry path →
      (placed name entry oldEntry).bind (Entry.look path) = look before (name :: path)) ∧
    (¬ SpecialAbove entry path →
      (placed name entry oldEntry).bind (Entry.look path) = entry.bind (Entry.look path)) := by
  cases entry with
  | none =>
    refine ⟨fun h => absurd h (not_specialAbove_none path), fun _ => ?_⟩
    rw [show oldEntry = none from hfi]
    rfl
  | some entry =>
    cases entry with
    | special => exact ⟨fun _ => (hfi path).symm, fun h => absurd (specialAbove_special path) h⟩
    | file content =>
      refine ⟨fun h => absurd h (not_specialAbove_file content path), fun _ => ?_⟩
      cases oldEntry with
      | none => rfl
      | some found =>
        cases found with
        | file | special => rfl
        | dir entries => exact absurd rfl (hfi entries)
    | dir entries =>
      rcases path with _ | ⟨inner, rest⟩
      · exact ⟨fun h => absurd h (not_specialAbove_dir_nil entries), fun _ => rfl⟩
      obtain ⟨hdir, hsp⟩ := hfi.2 inner (hpa inner mem_cons_self)
      simp only [placed, bind_some, Entry.look]
      cases hin : entries inner with
      | none =>
        have hno : copyVisible entries inner = none := copyVisible_eq_none (by simp [hin])
        refine ⟨fun h => ?_, fun _ => by rw [hno]⟩
        obtain ⟨_, _, ⟨⟩, hab⟩ := specialAbove_dir.mp h
        rw [hin] at hab
        exact absurd hab (not_specialAbove_none rest)
      | some found =>
        cases found with
        | dir below => exact absurd hin (hdir below)
        | special =>
          have hno : copyVisible entries inner = none := copyVisible_eq_none (by simp [hin])
          refine ⟨fun _ => by rw [hno, hsp hin]; rfl, fun h => ?_⟩
          refine absurd (specialAbove_dir.mpr ⟨inner, rest, rfl, ?_⟩) h
          rw [hin]
          exact specialAbove_special rest
        | file content =>
          have hso : copyVisible entries inner = some (.file content) :=
            copyVisible_eq_some.mpr ⟨hin, hpa inner mem_cons_self, content, rfl⟩
          refine ⟨fun h => ?_, fun _ => by rw [hso]⟩
          obtain ⟨_, _, ⟨⟩, hab⟩ := specialAbove_dir.mp h
          rw [hin] at hab
          exact absurd hab (not_specialAbove_file content rest)

theorem restored_of_faithful (hfa : Faithful saved old before) : Restored saved before after := by
  intro path
  rcases path with _ | ⟨name, rest⟩
  · exact ⟨fun _ => rfl, fun _ => rfl⟩
  by_cases hown : name = snapshotsName
  · subst hown
    have hsa : look after (snapshotsName :: rest) = look before (snapshotsName :: rest) := by
      rw [look, look, hpasted, if_pos rfl]
    refine ⟨fun _ => hsa, fun h => absurd ?_ h⟩
    exact .inl ⟨snapshotsName, mem_cons_self, by decide⟩
  · by_cases hhi : ∃ n ∈ name :: rest, isHidden n = true
    · refine ⟨fun _ => ?_, fun h => absurd (.inl hhi) h⟩
      rw [hfa.1 (name :: rest) (by simpa using hown) hhi, hpasted.look_cons hown]
      exact look_plain_hidden hspec.plain hhi
    have hvi : ∀ n ∈ name :: rest, isHidden n = false := by
      intro n hn
      by_contra h
      exact hhi ⟨n, hn, by simpa using h⟩
    have hna := hvi name mem_cons_self
    have hpd : result.1.get name = placed name (saved.get name) (old.get name) :=
      (hspec.complete (complete_of_faithful hspec hfa) name hna).2
    obtain ⟨hun, hba⟩ := look_of_fits (hfa.2 name hna) fun n hn => hvi n (mem_cons_of_mem name hn)
    rw [excluded_cons, hpasted.look_cons hown, hpd]
    exact ⟨fun h => hun (h.resolve_left hhi), fun h => hba (not_or.mp h).2⟩

theorem restored_iff_faithful : Restored saved before after ↔ Faithful saved old before :=
  ⟨faithful_of_restored hspec hpasted, restored_of_faithful hspec hpasted⟩

end

/-! ## §6 The manager over a run -/

/-- Snapshots have the shape that saving gives them, and they lie in the workspace. -/
structure Kept (m : RollbackManager) : Prop where
  plain : ∀ stageId tree, m.stored.get stageId = some tree → Plain tree
  inside : m.workspace = none → ∀ stageId, m.stored.get stageId = none

section

variable {m : RollbackManager} {stageId : Int}

theorem pruneOldSnapshots_workspace (m : RollbackManager) :
    m.pruneOldSnapshots.workspace = m.workspace := by
  unfold pruneOldSnapshots
  split <;> rfl

theorem get_stored_pruneOldSnapshots (m : RollbackManager) (stageId : Int) :
    m.pruneOldSnapshots.stored.get stageId = m.stored.get stageId ∨
      m.pruneOldSnapshots.stored.get stageId = none := by
  unfold pruneOldSnapshots
  split
  · exact .inl rfl
  rw [get_foldl_erase]
  split
  · exact .inr rfl
  · exact .inl rfl

/-- What the copy loop makes of the snapshot directory of a stage. -/
def copyOf (m : RollbackManager) (stageId : Int) (tree : Tree) : Copied × Bool :=
  copyLoop tree.entries ⟨(m.stored.get stageId).getD .empty, [], 0⟩

theorem Kept.copySpec (hke : Kept m) (stageId : Int) (tree : Tree) :
    CopySpec tree.entries ((m.stored.get stageId).getD .empty)
      ((copyOf m stageId tree).1.dest, (copyOf m stageId tree).2) := by
  apply copyLoop_spec tree.nodup ⟨(m.stored.get stageId).getD .empty, [], 0⟩
  cases hold : m.stored.get stageId with
  | none => exact plain_empty
  | some old => exact hke.plain stageId old hold

/-- A save leaves the workspace alone and writes one snapshot; it may take away others, and even
its own. -/
theorem saveSnapshot_spec (m : RollbackManager) (stageId : Int) (stageName : String) :
    (m.saveSnapshot stageId stageName).1.workspace = m.workspace ∧
    ∀ other, (m.saveSnapshot stageId stageName).1.stored.get other = none ∨
      (m.saveSnapshot stageId stageName).1.stored.get other = m.stored.get other ∧
        (other = stageId → m.workspace = none) ∨ ∃ tree, m.workspace = some tree ∧ other = stageId ∧
        (m.saveSnapshot stageId stageName).1.stored.get other =
          some (copyOf m stageId tree).1.dest := by
  unfold saveSnapshot
  rcases htr : m.workspace with _ | tree
  · exact ⟨htr, fun other => .inr (.inl ⟨rfl, fun _ => rfl⟩)⟩
  have hset : ∀ other, (m.stored.set stageId (copyOf m stageId tree).1.dest).get other =
      m.stored.get other ∧ (other = stageId → some tree = none) ∨
      other = stageId ∧ (m.stored.set stageId (copyOf m stageId tree).1.dest).get other =
        some (copyOf m stageId tree).1.dest := by
    intro _
    rw [get_set]
    split
    case isTrue heq => exact .inr ⟨heq, rfl⟩
    case isFalse hne => exact .inl ⟨rfl, fun heq => absurd heq hne⟩
  dsimp only
  split
  · refine ⟨pruneOldSnapshots_workspace _, fun other => ?_⟩
    rcases get_stored_pruneOldSnapshots _ other with hsa | hgo
    · rw [hsa]
      rcases hset other with hot | ⟨heq, hown⟩
      · exact .inr (.inl hot)
      · exact .inr (.inr ⟨tree, rfl, heq, hown⟩)
    · exact .inl hgo
  · refine ⟨rfl, fun other => ?_⟩
    rcases hset other with hot | ⟨heq, hown⟩
    · exact .inr (.inl hot)
    · exact .inr (.inr ⟨tree, rfl, heq, hown⟩)

/-- A restore that finds its snapshot puts it in the place of the workspace. -/
theorem restoreSnapshot_of_stored (hke : Kept m)
    (hst : m.stored.get stageId = some snapshot) (hbe : m.workspace = some before) :
    ∃ after, m.restoreSnapshot stageId = ({ m with workspace := some after }, .ok true) ∧
      Pasted before snapshot after := by
  have hpl := hke.plain stageId snapshot hst
  have hfo : ∃ found, (m.snapshots.get stageId).or (m.loadSnapshotFromDisk stageId) =
      some found := by
    rw [loadSnapshotFromDisk, hst]
    cases m.snapshots.get stageId with
    | none => exact ⟨_, rfl⟩
    | some found => exact ⟨found, rfl⟩
  obtain ⟨_, hfo⟩ := hfo
  have hen : ∀ e ∈ snapshot.entries, PlainEntry e.2 := by
    intro e he
    exact (hpl e.1 e.2 (snapshot.get_of_mem he)).2
  obtain ⟨hend, hget⟩ := pasteLoop_spec snapshot.nodup hen (before.filterKeys (· = snapshotsName))
  refine ⟨(pasteLoop snapshot.entries (before.filterKeys (· = snapshotsName))).1, ?_, ?_⟩
  · unfold restoreSnapshot
    rw [hfo, hst, hbe]
    dsimp only
    rw [hend]
    rfl
  · intro name
    rw [hget, get_filterKeys]
    show (snapshot.get name).or _ = _
    by_cases hown : name = snapshotsName
    · have hno : snapshot.get name = none := by
        refine eq_none_iff_forall_ne_some.mpr fun entry hey => ?_
        have hvi := (hpl name entry hey).1
        rw [hown] at hvi
        exact absurd hvi (by decide)
      simp [hno]
    · simp [hown]

theorem restoreSnapshot_of_gone (hgo : m.stored.get stageId = none) :
    m.restoreSnapshot stageId = (m, .ok false) := by
  unfold restoreSnapshot
  rw [hgo]
  cases (m.snapshots.get stageId).or (m.loadSnapshotFromDisk stageId) <;> rfl

theorem restoreSnapshot_stored (m : RollbackManager) (stageId : Int) :
    (m.restoreSnapshot stageId).1.stored = m.stored := by
  unfold restoreSnapshot
  split
  · split <;> rfl
  · rfl

/-- A step that writes no snapshot of the stage leaves it as it is or takes it away. -/
theorem get_stored_step {s : Step} (hot : ∀ name, s ≠ .save stageId name) :
    (step m s).stored.get stageId = m.stored.get stageId ∨
      (step m s).stored.get stageId = none := by
  cases s with
  | modify tree =>
    cases tree with
    | none => exact .inr rfl
    | some => exact .inl rfl
  | save id name =>
    rcases (saveSnapshot_spec m id name).2 stageId with hgo | ⟨hsa, -⟩ | ⟨_, _, rfl, _⟩
    · exact .inr hgo
    · exact .inl hsa
    · exact absurd rfl (hot name)
  | restore id => exact .inl (congrArg (get · stageId) (restoreSnapshot_stored m id))
  | cleanup => exact .inr rfl
  | restart => exact .inl rfl

theorem kept_of_empty (hem : m.stored = .empty) : Kept m := by
  refine ⟨fun _ _ h => ?_, fun _ _ => ?_⟩
  · rw [hem] at h
    cases h
  · rw [hem]
    rfl

theorem Kept.saveSnapshot (hke : Kept m) (stageId : Int) (stageName : String) :
    Kept (m.saveSnapshot stageId stageName).1 := by
  obtain ⟨hwo, hst⟩ := saveSnapshot_spec m stageId stageName
  refine ⟨fun other tree hot => ?_, fun hno other => ?_⟩
  · rcases hst other with hgo | ⟨hsa, -⟩ | ⟨saved, -, -, hown⟩
    · rw [hgo] at hot
      cases hot
    · exact hke.plain other tree (hsa ▸ hot)
    · rw [hown] at hot
      cases hot
      exact (hke.copySpec stageId saved).plain
  · rw [hwo] at hno
    rcases hst other with hgo | ⟨hsa, -⟩ | ⟨saved, hsv, -, -⟩
    · exact hgo
    · exact hsa.trans (hke.inside hno other)
    · rw [hno] at hsv
      cases hsv

theorem Kept.restoreSnapshot (hke : Kept m) (stageId : Int) :
    Kept (m.restoreSnapshot stageId).1 := by
  have hst := restoreSnapshot_stored m stageId
  refine ⟨fun other tree hot => hke.plain other tree (hst ▸ hot), fun hno other => ?_⟩
  rw [hst]
  refine hke.inside ?_ other
  rcases hwo : m.workspace with _ | _
  · rfl
  -- the workspace is still there after a restore
  cases hfo : m.stored.get stageId with
  | none =>
    rw [restoreSnapshot_of_gone hfo, hwo] at hno
    cases hno
  | some =>
    obtain ⟨_, hre, -⟩ := restoreSnapshot_of_stored hke hfo hwo
    rw [hre] at hno
    cases hno

theorem Kept.step (hke : Kept m) (s : Step) : Kept (m.step s) := by
  cases s with
  | modify tree =>
    cases tree with
    | none => exact kept_of_empty rfl
    | some => exact ⟨hke.plain, nofun⟩
  | save id name => exact hke.saveSnapshot id name
  | restore id => exact hke.restoreSnapshot id
  | cleanup => exact kept_of_empty rfl
  | restart => exact ⟨hke.plain, hke.inside⟩

theorem Kept.run (hke : Kept m) (steps : List Step) : Kept (runFrom .step m steps) :=
  Guarded.always (fun _ s h => h.step s) hke _

/-- After a save, only what that save wrote can be found for the stage. -/
theorem get_stored_run {steps : List Step} (hot : ∀ name, .save stageId name ∉ steps) :
    (runFrom step m steps).stored.get stageId = m.stored.get stageId ∨
      (runFrom step m steps).stored.get stageId = none := by
  have hst : Guarded step (fun _ s => ∀ name, s ≠ .save stageId name) m steps :=
    .of_forall fun s hs name heq => hot name (heq ▸ hs)
  have hsp : ∀ (now : RollbackManager) (s : Step),
      (now.stored.get stageId = m.stored.get stageId ∨ now.stored.get stageId = none) →
      (∀ name, s ≠ .save stageId name) → ((step now s).stored.get stageId = m.stored.get stageId ∨
        (step now s).stored.get stageId = none) := by
    intro _ s hnow hs
    rcases get_stored_step hs with hsa | hgo
    · rwa [hsa]
    · exact .inr hgo
  exact hst.invariant hsp (.inl rfl)

end

/-! ## §7 Rollbacks -/

/-- A restore of the stage says that it succeeded, and it does bring the saved workspace back. -/
def RollsBack (m : RollbackManager) (stageId : Int) (saved : Tree) : Prop :=
  ∃ before after, m.workspace = some before ∧ (m.restoreSnapshot stageId).2 = .ok true ∧
    (m.restoreSnapshot stageId).1.workspace = some after ∧ Restored saved before after

section

/-- A workspace with a text file and nothing else. -/
def notes (text : String) : Tree := empty.set "notes.md" (.file text)

theorem get_notes (text name : String) :
    (notes text).get name = if name = "notes.md" then some (.file text) else none := by
  rw [notes, get_set, get_empty]

theorem faithful_notes (saved before : String) : Faithful (notes saved) .empty (notes before) := by
  constructor
  · intro _ _ hhi
    refine look_plain_hidden (fun name entry hen => ?_) hhi
    rw [get_notes] at hen
    split at hen
    case isTrue heq =>
      cases hen
      exact ⟨heq ▸ by decide, .file before⟩
    · cases hen
  · intro _ _
    rw [get_notes]
    split
    · rintro _ ⟨⟩
    · rfl

/-- A workspace under version control, with a package below its source directory. -/
def project : Tree :=
  (empty.set "src" (.dir fun name => if name = "pkg" then some (.dir fun _ => none) else none)).set
    ".git" (.dir fun name => if name = "HEAD" then some (.file "ref: refs/heads/main") else none)

theorem not_excluded_pkg : ¬ Excluded project ["src", "pkg"] := by
  rw [excluded_cons, not_or]
  refine ⟨by decide, ?_⟩
  exact not_specialAbove_dir_dir rfl

end

end Orchestratord.Workflow
