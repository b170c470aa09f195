import Orchestratord.Issues.SharedFile

/-!
# Review feedback bookkeeping

A record keeps the review comments that wait for a follow-up and those that had one. Five
operations and the rebuilding of a record write these fields; the invariant below ties them
together, for every copy of the registry and for the file.
-/

namespace Orchestratord.Issues

open Foundation List

/-! ## §1 The invariant -/

/-- The ids and the URLs, without the clock. -/
structure Feedback.Listed (f : Feedback) : Prop where
  pending_nodup : f.pendingIds.Nodup
  processed_nodup : f.processedIds.Nodup
  disjoint : ∀ feedbackId ∈ f.pendingIds, feedbackId ∉ f.processedIds
  urls : ∀ feedbackId, (f.pendingUrls.get feedbackId).isSome → feedbackId ∈ f.pendingIds

structure Feedback.Booked (f : Feedback) : Prop extends Feedback.Listed f where
  since : f.pendingIds ≠ [] → f.pendingSince.isSome

theorem Feedback.booked_default : Feedback.Booked {} where
  pending_nodup := nodup_nil
  processed_nodup := nodup_nil
  disjoint := nofun
  urls := nofun
  since h := absurd rfl h

/-- Every record of a registry. -/
def Registry.Booked (r : Registry) : Prop :=
  ∀ id record, r.get id = some record → record.feedback.Booked

/-! ## §2 The operations on feedback -/

namespace Feedback

variable {f : Feedback}

theorem Listed.addPending (h : f.Listed) (urls : Dict String String) (feedbackId : String) :
    (Registry.addPending urls f feedbackId).Listed := by
  unfold Registry.addPending
  split
  · exact h
  rename_i hnew
  -- the id is pending after the step, whether or not it was before
  have hmem : ∀ other, other ∈ (if feedbackId ∈ f.pendingIds then f.pendingIds
      else f.pendingIds ++ [feedbackId]) ↔ other = feedbackId ∨ other ∈ f.pendingIds := by
    intro _
    split
    · rename_i hold
      constructor
      · exact .inr
      · rintro (rfl | hin)
        · exact hold
        · exact hin
    · rw [mem_append, mem_singleton, or_comm]
  refine ⟨?_, h.processed_nodup, ?_, ?_⟩
  · split
    · exact h.pending_nodup
    · rename_i hfr
      exact concat_eq_append ▸ h.pending_nodup.concat hfr
  · intro other hot
    rcases (hmem other).mp hot with rfl | hin
    · exact hnew
    · exact h.disjoint other hin
  intro other hurl
  rw [hmem]
  dsimp only at hurl
  split at hurl
  · exact .inr (h.urls other hurl)
  rw [Dict.get_set] at hurl
  split at hurl
  · rename_i heq
    exact .inl heq
  · exact .inr (h.urls other hurl)

theorem Listed.foldl_addPending (h : f.Listed) (urls : Dict String String)
    (feedbackIds : List String) : (feedbackIds.foldl (Registry.addPending urls) f).Listed := by
  induction feedbackIds generalizing f with
  | nil => exact h
  | cons feedbackId _ ih => exact ih (h.addPending urls feedbackId)

/-- Adding ids leaves the clock alone. -/
theorem foldl_addPending_pendingSince (f : Feedback) (urls : Dict String String)
    (feedbackIds : List String) :
    (feedbackIds.foldl (Registry.addPending urls) f).pendingSince = f.pendingSince := by
  induction feedbackIds generalizing f with
  | nil => rfl
  | cons _ _ ih =>
    rw [foldl_cons, ih, Registry.addPending]
    split <;> rfl

/-- The processed ids with new ones: those that were there stay, each new one is there once. -/
theorem foldl_processed {ids : List String} (hids : ids.Nodup) (feedbackIds : List String) :
    (feedbackIds.foldl (fun ids feedbackId => if feedbackId ∈ ids then ids else ids ++ [feedbackId])
      ids).Nodup ∧ ∀ feedbackId, feedbackId ∈ feedbackIds.foldl
        (fun ids feedbackId => if feedbackId ∈ ids then ids else ids ++ [feedbackId]) ids ↔
      feedbackId ∈ ids ∨ feedbackId ∈ feedbackIds := by
  induction feedbackIds generalizing ids with
  | nil => exact ⟨hids, fun _ => by simp⟩
  | cons first _ ih =>
    rw [foldl_cons]
    split
    · rename_i hold
      obtain ⟨hno, hmem⟩ := ih hids
      refine ⟨hno, fun feedbackId => ?_⟩
      rw [hmem, mem_cons]
      constructor
      · exact .imp_right .inr
      rintro (hin | rfl | hin)
      · exact .inl hin
      · exact .inl hold
      · exact .inr hin
    · rename_i hfr
      have hnew : (ids ++ [first]).Nodup := concat_eq_append ▸ hids.concat hfr
      obtain ⟨hno, hmem⟩ := ih hnew
      refine ⟨hno, fun feedbackId => ?_⟩
      rw [hmem, mem_append, mem_singleton, mem_cons, or_assoc]

end Feedback

namespace Registry

variable {r : Registry} {id : IssueId} {now : Time} (h : r.Booked)

include h

variable {g : IssueRecord → IssueRecord}

theorem Booked.modify (hg : ∀ record, record.feedback.Booked → (g record).feedback.Booked) :
    Booked (r.modify id g) := by
  intro other record hre
  rw [Dict.get_modify] at hre
  split at hre
  · obtain ⟨old, hold, rfl⟩ := Option.map_eq_some_iff.mp hre
    exact hg old (h _ old hold)
  · exact h other record hre

theorem Booked.edit (hg : ∀ record, record.feedback.Booked → (g record).feedback.Booked) :
    Booked (r.edit id now g) :=
  h.modify hg

theorem Booked.set {record : IssueRecord} (hre : record.feedback.Booked) :
    Booked (r.set id record) := by
  intro other found hfo
  rw [Dict.get_set] at hfo
  split at hfo
  · cases hfo
    exact hre
  · exact h other found hfo

/-- A record that is rebuilt takes over the lists, the URLs and the clock together. -/
theorem Booked.register (args : Registration) (fresh : String) :
    Booked (r.register args fresh now) := by
  unfold Registry.register
  split
  · exact h.set Feedback.booked_default
  rename_i existing hex
  have hold := h _ existing hex
  apply h.set
  exact ⟨{ hold with }, hold.since⟩

variable (feedbackIds : List String)

theorem Booked.markFeedbackPending (cursor : Option String) (urls : Dict String String) :
    Booked (r.markFeedbackPending id feedbackIds cursor urls now) := by
  apply h.edit
  intro record hre
  have hst : Feedback.Listed { record.feedback with
      pendingSince := if record.feedback.pendingIds = [] then some now
        else record.feedback.pendingSince } :=
    { hre with }
  obtain ⟨hpe, hpr, hdi, hur⟩ := hst.foldl_addPending urls feedbackIds
  refine ⟨⟨hpe, hpr, hdi, hur⟩, fun _ => ?_⟩
  rw [Feedback.foldl_addPending_pendingSince]
  split
  · rfl
  · rename_i hso
    exact hre.since hso

theorem Booked.markFeedbackProcessed (commitSha cursor : Option String) :
    Booked (r.markFeedbackProcessed id feedbackIds commitSha cursor now) := by
  apply h.edit
  intro _ hre
  obtain ⟨hno, hmem⟩ := Feedback.foldl_processed hre.processed_nodup feedbackIds
  refine ⟨⟨hre.pending_nodup.filter _, hno, ?_, ?_⟩, ?_⟩
  · intro _ hpe
    simpa using (mem_filter.mp hpe).2
  · intro feedbackId hurl
    -- a URL that is left belongs to a pending id that is not among those processed now
    rw [Dict.get_foldl_erase] at hurl
    split at hurl
    · cases hurl
    rename_i hot
    have hpe := hre.urls feedbackId hurl
    refine mem_filter.mpr ⟨hpe, ?_⟩
    simp [hmem, hot, hre.disjoint feedbackId hpe]
  · intro hle
    dsimp only at hle ⊢
    rw [if_neg hle]
    apply hre.since
    intro hnn
    rw [hnn] at hle
    exact hle rfl

theorem Booked.clearStalePending (timeoutMs : ℕ) :
    Booked (r.clearStalePending id timeoutMs now) := by
  apply h.modify
  intro _ hre
  split
  · exact hre
  · exact hre
  · split
    · exact hre
    · exact ⟨⟨nodup_nil, hre.processed_nodup, nofun, nofun⟩, fun hne => absurd rfl hne⟩

/-- The fields of the bookkeeping are written by three operations only. -/
theorem Booked.changeInPlace (operation : InPlace) : Booked (r.changeInPlace id now operation) := by
  cases operation with
  | markFeedbackPending feedbackIds cursor urls =>
    exact h.markFeedbackPending feedbackIds cursor urls
  | markFeedbackProcessed feedbackIds commitSha cursor =>
    exact h.markFeedbackProcessed feedbackIds commitSha cursor
  | clearStalePending timeoutMs => exact h.clearStalePending timeoutMs
  | clearRetryPlan =>
    apply h.modify
    intro _ hre
    split
    all_goals exact hre
  | incrementFollowupAttempt | incrementFeedbackFailure | markFeedbackChecked =>
    apply h.edit
    intro _ hre
    exact ⟨{ hre with }, hre.since⟩
  | _ => exact h.edit fun _ hre => hre

theorem Booked.operate (now : Time) (operation : Operation) : Booked (r.operate now operation) := by
  cases operation with
  | register args fresh => exact h.register args fresh
  | inPlace _ operation => exact h.changeInPlace operation

end Registry

/-! ## §3 Every run of the processes that share the file -/

namespace SharedFile

/-- The file and every copy of it. -/
structure Booked (s : SharedFile) : Prop where
  file : s.file.Booked
  processes : ∀ p process, s.processes p = some process → process.records.Booked

variable {s : SharedFile}

theorem Booked.update (h : s.Booked) {file : Registry} {p : ProcessId} {next : Process}
    {log : List Completed} (hfi : file.Booked) (hne : next.records.Booked) :
    Booked ⟨file, Function.update s.processes p (some next), log⟩ := by
  refine ⟨hfi, fun q process hpr => ?_⟩
  rcases update_eq_some hpr with ⟨-, rfl⟩ | ⟨-, hold⟩
  · exact hne
  · exact h.processes q process hold

theorem Booked.step (h : s.Booked) (i : RegistryStep) : (s.step i).Booked := by
  cases i with
  | start => exact h.update h.file h.file
  | stop p =>
    refine ⟨h.file, fun q process hpr => ?_⟩
    by_cases hq : q = p
    · subst hq
      simp [SharedFile.step] at hpr
    · simp only [SharedFile.step, Function.update_of_ne hq] at hpr
      exact h.processes q process hpr
  | operate p operation now =>
    simp only [SharedFile.step]
    split
    · exact h
    rename_i process hpr
    have hne := (h.processes p process hpr).operate now operation
    apply h.update
    · split
      · exact hne
      · exact h.file
    · exact hne
  | flush p =>
    simp only [SharedFile.step]
    split
    · exact h
    rename_i process hpr
    split
    · exact h.update (h.processes p process hpr) (h.processes p process hpr)
    · exact h

/-- From an empty registry, after any sequence of operations, saves that reach the disk or do not,
and loads, the feedback of every record is booked consistently, in the file and in every
process. -/
theorem feedback_booked (steps : List RegistryStep) :
    (runFrom SharedFile.step { file := .empty } steps).Booked := by
  have hst : Booked { file := .empty } := by
    constructor
    · rintro _ _ ⟨⟩
    · rintro p _ ⟨⟩
  exact Guarded.always (fun _ i h => h.step i) hst steps

end SharedFile

end Orchestratord.Issues
