import Orchestratord.Foundation.Runs
import Orchestratord.Peer.RoundTrip

/-! # Replayed frames

A run of signing, checking and pruning over one store of nonces. A frame passes the window up to
and including its last instant, and its nonce is forgotten at that very instant; so replays are
excluded only for checks whose reading of the clock for the store comes before it. -/

namespace Orchestratord.Peer

open Foundation NonceStore List Function

/-! ## The exchange -/

structure Exchange where
  store : NonceStore := {}
  /-- The last reading of the clock for the store. -/
  clock : ℚ
  /-- The signed frames, each with its token. -/
  signed : List (String × PeerFrame) := []
  /-- The frames that passed the check, each with its token. -/
  accepted : List (String × PeerFrame) := []

namespace Exchange

inductive Input where
  | sign (token fresh : String) (frame : PeerFrame)
  /-- A check that reads the clock at `now` and, for the store, at `storeNow`. -/
  | present (token : String) (frame : PeerFrame) (now storeNow : ℚ)
  | prune (now : ℚ)

section

variable (rt : Runtime) (window : ℚ) (s : Exchange)

def step : Input → Exchange
  | .sign token fresh frame =>
    match Peer.sign rt token fresh frame with
    | .ok signed => { s with signed := s.signed ++ [(token, signed)] }
    | .error _ => s
  | .present token frame now storeNow =>
    match verify rt token window now storeNow frame s.store with
    | (.ok _, store) =>
      { s with store, clock := storeNow, accepted := s.accepted ++ [(token, frame)] }
    | (.error _, store) => { s with store, clock := storeNow }
  | .prune now => { s with store := s.store.prune now, clock := now }

/-- The clock never goes back, neither within a check nor between the uses of the store. -/
def Ticks : Input → Prop
  | .sign .. => True
  | .present _ _ now storeNow => now ≤ storeNow ∧ s.clock ≤ storeNow
  | .prune now => s.clock ≤ now

instance (input : Input) : Decidable (s.Ticks input) := by
  unfold Ticks
  split <;> infer_instance

/-- When the nonce of a frame can be forgotten: its time to live after the first instant at which
the frame can pass. -/
def forgottenAt (frame : PeerFrame) : ℚ := frame.timestamp - window + nonceTtl window

/-- The store is asked before the nonce can be forgotten. -/
def Timely (_ : Exchange) : Input → Prop
  | .present _ frame _ storeNow => storeNow < forgottenAt window frame
  | _ => True

instance (input : Input) : Decidable (Timely window s input) := by
  unfold Timely
  split <;> infer_instance

end

end Exchange

/-! ## What an accepted frame has passed -/

/-- The key of a frame's nonce in the store. -/
def nonceKey (rt : Runtime) (frame : PeerFrame) : Option (String × String) :=
  (orchText frame.orchId).bind fun orchId => (rt.column frame.nonce).map (orchId, ·)

/-- The frame is within the window and carries the hash of its own signed bytes. -/
structure Checked (rt : Runtime) (token : String) (window now : ℚ) (frame : PeerFrame)
    (key : String × String) : Prop where
  nonceKey : nonceKey rt frame = some key
  inWindow : |now - frame.timestamp| ≤ window
  signed : ∃ payload, signaturePayload rt frame = some payload ∧
    frame.signature = .str (rt.hmac token payload)

variable {rt : Runtime} {token : String} {window now storeNow : ℚ} {frame : PeerFrame}
  {key : String × String}

section

theorem checkFrame_ok (h : checkFrame rt token window now frame = .ok key) :
    Checked rt token window now frame key := by
  unfold checkFrame at h
  split at h
  · cases h
  split at h
  · cases h
  split at h
  · cases h
  · cases h
  split at h
  · cases h
  rename_i hwi
  split at h
  case h_1 _ _ payload _ _ hpa hsi hor =>
    split at h
    · cases h
    rename_i hmac
    split at h
    case h_1 _ hco =>
      cases h
      refine ⟨?_, not_lt.mp hwi, payload, hpa, ?_⟩
      · rw [nonceKey, hor, hco]
        rfl
      · rw [hsi, ← not_not.mp hmac]
    · cases h
  · cases h

/-- A check reads the time only for the window. -/
theorem checkFrame_congr {now' : ℚ} (h : checkFrame rt token window now frame = .ok key)
    (hwi : |now' - frame.timestamp| ≤ window) :
    checkFrame rt token window now' frame = .ok key := by
  have hbe := (checkFrame_ok h).inWindow
  unfold checkFrame at h ⊢
  simpa only [if_neg (not_lt.mpr hbe), if_neg (not_lt.mpr hwi)] using h

variable {store store' : NonceStore}

/-- What an accepted frame leaves in the store. -/
theorem verify_ok {u : Unit}
    (h : verify rt token window now storeNow frame store = (.ok u, store')) :
    ∃ key, Checked rt token window now frame key ∧ store.seen storeNow key = false ∧
      store' = { rows := update store.rows key (some (storeNow + nonceTtl window)) } := by
  unfold verify at h
  split at h
  · cases h
  rename_i key hkey
  unfold checkAndStore at h
  by_cases hse : store.seen storeNow key
  · rw [if_pos hse] at h
    cases h
  · rw [if_neg hse] at h
    cases h
    exact ⟨key, checkFrame_ok hkey, by simpa using hse, rfl⟩

/-- A refused frame leaves the store alone. -/
theorem verify_error {e : AuthError}
    (h : verify rt token window now storeNow frame store = (.error e, store')) :
    store' = store := by
  unfold verify at h
  split at h
  · cases h; rfl
  rename_i key hkey
  unfold checkAndStore at h
  by_cases hse : store.seen storeNow key
  · rw [if_pos hse] at h
    cases h
    rfl
  · rw [if_neg hse] at h
    cases h

end

/-! ## At most once -/

namespace Exchange

variable {s : Exchange}

/-- What stands in the way of a second acceptance: a row that outlives the frame, or the time. -/
def Guards (s : Exchange) (key : String × String) (deadline : ℚ) : Prop :=
  deadline ≤ s.clock ∨ ∃ expiresAt, s.store.rows key = some expiresAt ∧ deadline ≤ expiresAt

/-- Every accepted frame is guarded, and no two share both nonce and timestamp. -/
structure ReplayInv (rt : Runtime) (window : ℚ) (s : Exchange) : Prop where
  guarded : ∀ entry ∈ s.accepted, ∃ key, nonceKey rt entry.2 = some key ∧
    s.Guards key (forgottenAt window entry.2)
  apart : s.accepted.Pairwise fun a b =>
    ¬ (nonceKey rt a.2 = nonceKey rt b.2 ∧ a.2.timestamp = b.2.timestamp)

/-- A guard holds as long as only rows go that are expired. -/
theorem Guards.mono {s' : Exchange} {deadline : ℚ} (h : s.Guards key deadline)
    (hcl : s.clock ≤ s'.clock) (hro : ∀ expiresAt, s.store.rows key = some expiresAt →
      s'.store.rows key = some expiresAt ∨ expiresAt ≤ s'.clock) : s'.Guards key deadline := by
  rcases h with hpa | ⟨expiresAt, hrow, hla⟩
  · exact .inl (hpa.trans hcl)
  · rcases hro expiresAt hrow with hke | hex
    · exact .inr ⟨expiresAt, hke, hla⟩
    · exact .inl (hla.trans hex)

variable (h : ReplayInv rt window s)

include h

theorem ReplayInv.prune (hcl : s.clock ≤ now) :
    ReplayInv rt window { s with store := s.store.prune now, clock := now } := by
  refine ⟨?_, h.apart⟩
  intro entry hen
  obtain ⟨key, hkey, hgu⟩ := h.guarded entry hen
  refine ⟨key, hkey, hgu.mono hcl ?_⟩
  intro expiresAt hrow
  by_cases hli : now < expiresAt
  · exact .inl (by simp [NonceStore.prune, hrow, hli])
  · exact .inr (not_lt.mp hli)

theorem ReplayInv.refuse (hcl : s.clock ≤ storeNow) :
    ReplayInv rt window { s with clock := storeNow } := by
  refine ⟨?_, h.apart⟩
  intro entry hen
  obtain ⟨key, hkey, hgu⟩ := h.guarded entry hen
  exact ⟨key, hkey, hgu.mono hcl fun _ hrow => .inl hrow⟩

theorem ReplayInv.accept (hch : Checked rt token window now frame key)
    (hun : s.store.seen storeNow key = false) (hnow : now ≤ storeNow)
    (hcl : s.clock ≤ storeNow) (hti : storeNow < forgottenAt window frame) :
    ReplayInv rt window { s with
      store := { rows := update s.store.rows key (some (storeNow + nonceTtl window)) }
      clock := storeNow
      accepted := s.accepted ++ [(token, frame)] } := by
  have hex : ∀ expiresAt, s.store.rows key = some expiresAt → expiresAt ≤ storeNow := by
    intro _ hrow
    simpa [seen, hrow] using hun
  constructor
  · intro entry hen
    rcases mem_append.mp hen with hold | hnew
    · obtain ⟨other, hot, hgu⟩ := h.guarded entry hold
      refine ⟨other, hot, hgu.mono hcl ?_⟩
      intro expiresAt hrow
      by_cases hse : other = key
      · subst hse
        exact .inr (hex expiresAt hrow)
      · exact .inl ((update_of_ne hse _ _).trans hrow)
    · obtain rfl := mem_singleton.mp hnew
      refine ⟨key, hch.nonceKey, .inr ⟨_, update_self .., ?_⟩⟩
      -- the first reading of the clock is not before the window opens
      have hop := (abs_le.mp hch.inWindow).1
      unfold forgottenAt
      linarith
  · rw [pairwise_append]
    refine ⟨h.apart, pairwise_singleton _ _, ?_⟩
    rintro entry hen _ hnew ⟨hsm, hsa⟩
    obtain rfl := mem_singleton.mp hnew
    obtain ⟨other, hot, hgu⟩ := h.guarded entry hen
    obtain rfl : other = key := by
      rw [hsm, hch.nonceKey] at hot
      exact (Option.some.inj hot).symm
    have hsd : forgottenAt window entry.2 = forgottenAt window frame := by
      rw [forgottenAt, hsa, forgottenAt]
    rcases hgu with hpa | ⟨expiresAt, hrow, hla⟩
    · linarith
    · linarith [hex expiresAt hrow]

theorem ReplayInv.step {input : Input} (hti : s.Ticks input)
    (htm : Timely window s input) : ReplayInv rt window (s.step rt window input) := by
  cases input with
  | sign =>
    simp only [Exchange.step]
    split
    · exact ⟨h.guarded, h.apart⟩
    · exact h
  | present =>
    obtain ⟨hnow, hcl⟩ := hti
    simp only [Exchange.step]
    split
    case h_1 _ hve =>
      obtain ⟨_, hch, hun, rfl⟩ := verify_ok hve
      exact h.accept hch hun hnow hcl htm
    case h_2 _ hve =>
      rw [verify_error hve]
      exact h.refuse hcl
  | prune => exact h.prune hti

omit h

theorem replayInv_of_timely {clock : ℚ} {inputs : List Input}
    (hrun : Guarded (step rt window) (fun s input => s.Ticks input ∧ Timely window s input)
      { clock } inputs) : ReplayInv rt window (runFrom (step rt window) { clock } inputs) :=
  hrun.invariant (fun _ _ hinv hin => hinv.step hin.1 hin.2) ⟨by simp, by simp⟩

/-- A frame that passes when its nonce can be forgotten already was accepted before, if it was
presented at the first instant of its window. -/
theorem accepted_twice (hch : checkFrame rt token window now frame = .ok key)
    (hla : forgottenAt window frame ≤ storeNow) :
    (runFrom (step rt window) { clock := frame.timestamp - window }
      [.present token frame (frame.timestamp - window) (frame.timestamp - window),
        .present token frame now storeNow]).accepted = [(token, frame), (token, frame)] := by
  have hwi : 0 ≤ window := (abs_nonneg _).trans (checkFrame_ok hch).inWindow
  have hfi : checkFrame rt token window (frame.timestamp - window) frame = .ok key := by
    apply checkFrame_congr hch
    rw [sub_sub_cancel_left, abs_neg, abs_of_nonneg hwi]
  have hve : verify rt token window (frame.timestamp - window) (frame.timestamp - window) frame
      {} = (.ok (), ⟨update (fun _ => none) key (some (forgottenAt window frame))⟩) := by
    rw [verify, hfi]
    rfl
  obtain ⟨store, hag⟩ : ∃ store, verify rt token window now storeNow frame
      ⟨update (fun _ => none) key (some (forgottenAt window frame))⟩ =
      (.ok (), store) := by
    have hse : seen ⟨update (fun _ => none) key (some (forgottenAt window frame))⟩ storeNow key =
        false := by
      simpa [seen] using hla
    rw [verify, hch]
    dsimp only
    rw [checkAndStore, if_neg (by simp [hse])]
    exact ⟨_, rfl⟩
  simp only [runFrom_cons, runFrom_nil, step, hve, hag, nil_append, singleton_append]

/-- In every run whose clock never goes back and whose checks are timely, no frame is accepted
twice. And for every check that passes without being timely there is a run in which the frame is
accepted twice: it has been presented at the first instant of its window before. -/
theorem accepted_once_of_timely (rt : Runtime) (window : ℚ) :
    (∀ clock inputs, Guarded (step rt window)
        (fun s input => s.Ticks input ∧ Timely window s input) { clock } inputs →
      ((runFrom (step rt window) { clock } inputs).accepted.map Prod.snd).Nodup) ∧
    ∀ token frame now storeNow key, checkFrame rt token window now frame = .ok key →
      now ≤ storeNow → ¬ storeNow < forgottenAt window frame →
      ∃ clock opening, Guarded (step rt window) Ticks { clock }
          [.present token frame opening opening, .present token frame now storeNow] ∧
        (runFrom (step rt window) { clock } [.present token frame opening opening,
          .present token frame now storeNow]).accepted = [(token, frame), (token, frame)] := by
  constructor
  · intro _ _ hrun
    have hinv := replayInv_of_timely hrun
    rw [List.Nodup, pairwise_map]
    apply hinv.apart.imp
    intro a b hap heq
    exact hap ⟨congrArg (nonceKey rt) heq, congrArg PeerFrame.timestamp heq⟩
  · intro token frame _ _ _ hch hnow hla
    have hla := not_lt.mp hla
    refine ⟨frame.timestamp - window, frame.timestamp - window, ?_, accepted_twice hch hla⟩
    have hcl : ∀ s : Exchange, (s.step rt window (.present token frame
        (frame.timestamp - window) (frame.timestamp - window))).clock = frame.timestamp - window := by
      intro s
      simp only [step]
      split <;> rfl
    have httl : 0 < nonceTtl window := lt_max_of_lt_left (by decide)
    refine ⟨⟨le_rfl, le_rfl⟩, ⟨hnow, ?_⟩, trivial⟩
    rw [hcl]
    unfold forgottenAt at hla
    linarith

/-- A greeting of the time 100, signed with the token. -/
noncomputable def greeting : PeerFrame where
  type := .hello
  frameId := "f1"
  orchId := .str "east"
  timestamp := 100
  nonce := .str "n1"
  signature := .str (unaryRuntime.hmac "secret" ([sep].intercalate [utf8 "east", utf8 "f1", [],
    utf8 "0"]))

/-- Within its window the greeting passes once. -/
theorem greeting_accepted_once :
    (runFrom (step unaryRuntime 60) { clock := 0 } [.present "secret" greeting 40 40, .prune 90,
      .present "secret" greeting 159 159]).accepted.length = 1 ∧
    ((runFrom (step unaryRuntime 60) { clock := 0 } [.present "secret" greeting 40 40, .prune 90,
      .present "secret" greeting 159 159]).accepted.map Prod.snd).Nodup :=
  ⟨by decide +kernel, (accepted_once_of_timely unaryRuntime 60).1 0 _ (by decide +kernel)⟩

/-- Presented exactly a minute before and exactly a minute after its timestamp, it passes twice. -/
theorem greeting_accepted_twice : Guarded (step unaryRuntime 60) Ticks { clock := 40 }
      [.present "secret" greeting 40 40, .present "secret" greeting 160 160] ∧
    (runFrom (step unaryRuntime 60) { clock := 40 } [.present "secret" greeting 40 40,
      .present "secret" greeting 160 160]).accepted =
        [("secret", greeting), ("secret", greeting)] := by
  have hop : greeting.timestamp - 60 = 40 := by
    norm_num [greeting]
  have hch : checkFrame unaryRuntime "secret" 60 160 greeting = .ok ("east", "n1") := by
    decide +kernel
  have hla : forgottenAt 60 greeting ≤ 160 := by decide +kernel
  refine ⟨by decide +kernel, ?_⟩
  rw [← hop]
  exact accepted_twice hch hla

end Exchange

end Orchestratord.Peer
