import Orchestratord.Peer.Dispatcher

/-! # What a delivery can do

A delivery is handled in two steps, its arrival and the end of its operation. `Arrived` and
`Ended` list what these steps can do to the world, with what they do to the result cache;
later proofs go by these cases and do not look into the routes again. -/

namespace Orchestratord.Peer

open Foundation Dispatcher Invoke Function

variable {V : Type} {server : Server V} {p : OrchId} {m : String}

/-- A delivery of the message `m` of the peer `p`. -/
def Tracked (p : OrchId) (m : String) (invoke : Invoke) : Prop :=
  invoke.peer = p ∧ invoke.msgId = some m

instance (invoke : Invoke) : Decidable (Tracked p m invoke) :=
  inferInstanceAs (Decidable (_ ∧ _))

/-- The REST route gets as far as its operation; the frame route always does. -/
def Invoke.wellFormed (invoke : Invoke) : Prop :=
  invoke.route = .frame ∨ (invoke.method = .sessionsRead ∧ invoke.workspace = .own) ∨
    (invoke.method = .sessionsMessage ∧ invoke.sessionId.isSome)

instance : DecidablePred wellFormed := fun invoke =>
  inferInstanceAs (Decidable (invoke.route = .frame ∨ _ ∨ _))

/-- A REST call names its own peer in the path. -/
def Invoke.ownPath (invoke : Invoke) : Prop :=
  invoke.route = .frame ∨ invoke.route = .rest invoke.peer

instance : DecidablePred ownPath := fun invoke =>
  inferInstanceAs (Decidable (invoke.route = .frame ∨ invoke.route = .rest invoke.peer))

/-! ## What one step does to the cache -/

/-- The key under which a delivery is looked up and remembered. -/
def keyOf (id : Nat) (invoke : Invoke) : Key :=
  match invoke.route with
  | .frame => (invoke.peer, .given (invoke.msgId.getD ""))
  | .rest orchId =>
    if invoke.method = .sessionsRead then (orchId, .given (invoke.msgId.getD ""))
    else (orchId, invoke.drawnId id)

variable {id : Nat} {invoke : Invoke}

/-- A call that names its own peer uses the tracked key exactly if it is tracked. -/
theorem keyOf_eq_iff (hm : m ≠ "") (hpa : invoke.ownPath) :
    keyOf id invoke = (p, .given m) ↔ Tracked p m invoke := by
  have hge : invoke.msgId.getD "" = m ↔ invoke.msgId = some m := by
    rcases invoke.msgId with _ | given
    · simp [hm.symm]
    · simp
  unfold keyOf Tracked
  rcases hpa with hro | hro
  · simp [hro, hge]
  rw [hro]
  dsimp only
  split
  · simp [hge]
  unfold drawnId
  rcases hid : invoke.msgId with _ | given
  · simp
  · by_cases hem : given = ""
    · simp [hem, Option.filter, hm.symm]
    · simp [hem, Option.filter]

/-- An entry of the cache stays as it is, or goes once its time is over. -/
def Lapses (now : Nat) (before after : Option (Stored V × Nat)) : Prop :=
  after = before ∨ (after = none ∧ ∀ entry, before = some entry → entry.2 ≤ now)

namespace Dispatcher

variable {d : Dispatcher V} {config : PeerConfig} {now : Nat} {key other : Key} {r : Stored V}

theorem results_checkOrdering (orchId : OrchId) (session : String)
    (ordering : Option (Option Int)) :
    (d.checkOrdering orchId session ordering).2.results = d.results := by
  rcases ordering with _ | _ | seq
  · rfl
  · rfl
  simp only [checkOrdering]
  split
  · rfl
  · split <;> rfl

theorem results_completeDispatch : (d.completeDispatch config now key r).2.results =
      (d.rememberResult config now key r).results := by
  dsimp only [completeDispatch, scheduleTurn]
  split
  · split <;> rfl
  · rfl

theorem cachedResult_congr {d' : Dispatcher V} (h : d'.results = d.results) :
    d'.cachedResult now key = d.cachedResult now key := by
  simp [cachedResult, h]

/-- A hit leaves the cache alone. -/
theorem results_dropExpired_hit (hca : d.cachedResult now key = some r) :
    (d.dropExpired now key).results = d.results := by
  simp [dropExpired, hca]

theorem results_dropExpired_miss (hca : d.cachedResult now key = none) :
    (d.dropExpired now key).results = update d.results key none := by
  simp [dropExpired, hca]

/-- What is remembered is in the cache for the length of the window. -/
theorem results_rememberResult_self (hwi : 0 < config.dedupWindowSeconds) :
    (d.rememberResult config now key r).results key =
      some (r, now + config.dedupWindowSeconds) := by
  simp [rememberResult, prune, hwi]

theorem cachedResult_rememberResult (hwi : 0 < config.dedupWindowSeconds) :
    (d.rememberResult config now key r).cachedResult now key = some r := by
  unfold cachedResult
  rw [results_rememberResult_self hwi]
  simp only
  rw [if_neg (by omega)]

/-- Remembering another message can only drop entries whose time is over. -/
theorem lapses_rememberResult (hne : other ≠ key) :
    Lapses now (d.results other) ((d.rememberResult config now key r).results other) := by
  unfold rememberResult prune
  simp only [update_of_ne hne]
  rcases hen : d.results other with _ | entry
  · exact .inl rfl
  by_cases hli : now < entry.2
  · exact .inl (by simp [hli])
  refine .inr ⟨by simp [Option.filter, hli], ?_⟩
  rintro entry' heq
  obtain rfl := Option.some.inj heq
  omega

end Dispatcher

/-! ## What an arrival can do -/

/-- A cached result as the route of a delivery shows it. -/
def shown (server : Server V) (invoke : Invoke) (r : Stored V) : Outcome V :=
  match invoke.route with
  | .frame => World.frameOutcome server (some r)
  | .rest _ => .body (some r)

/-- The four ways an admitted delivery can go: it is answered from the cache, its operation
is started, its unknown method is echoed, or it is refused as malformed. -/
inductive Arrived (server : Server V) (w : World V) (id : Nat) (invoke : Invoke) :
    World V → Prop where
  | hit {d : Dispatcher V} {r : Stored V}
      (hcached : w.dispatcher.cachedResult w.clock (keyOf id invoke) = some r)
      (hres : d.results = w.dispatcher.results) :
      Arrived server w id invoke
        ({ w with dispatcher := d }.answer id invoke (shown server invoke r))
  | launched {d : Dispatcher V} {outOfOrder : Bool}
      (hcached : w.dispatcher.cachedResult w.clock (keyOf id invoke) = none)
      (hres : d.results = update w.dispatcher.results (keyOf id invoke) none) :
      Arrived server w id invoke
        ({ w with dispatcher := d }.launch { id, invoke, key := keyOf id invoke, outOfOrder })
  | echoed {d d' : Dispatcher V}
      (hcached : w.dispatcher.cachedResult w.clock (keyOf id invoke) = none)
      (hroute : invoke.route = .frame)
      (hdrop : d.results = update w.dispatcher.results (keyOf id invoke) none)
      (hres : d'.results = (d.rememberResult server.config w.clock (keyOf id invoke)
        (.value (server.echo invoke))).results) :
      Arrived server w id invoke ({ w with dispatcher := d' }.answer id invoke
        (World.frameOutcome server (d'.cachedResult w.clock (keyOf id invoke))))
  | refused {d : Dispatcher V} {status : Nat} {detail : String} (hbad : ¬ invoke.wellFormed)
      (hres : d.results = w.dispatcher.results ∨
        d.results = update w.dispatcher.results (keyOf id invoke) none) :
      Arrived server w id invoke
        ({ w with dispatcher := d }.answer id invoke (.error status detail))

variable {w : World V}

namespace World

/-- The ordering table changes, the cache does not. -/
theorem results_orderFrame (d : Dispatcher V) (invoke : Invoke) :
    (orderFrame d invoke).2.results = d.results := by
  unfold orderFrame
  split
  · rfl
  · exact results_checkOrdering _ _ _

theorem arrived_frame (hro : invoke.route = .frame) :
    Arrived server w id invoke (w.arriveFrame server id invoke) := by
  have hkey : keyOf id invoke = (invoke.peer, .given (invoke.msgId.getD "")) := by
    simp [keyOf, hro]
  unfold arriveFrame
  rw [← hkey]
  have hre := results_orderFrame w.dispatcher invoke
  rcases hca : w.dispatcher.cachedResult w.clock (keyOf id invoke) with _ | r
  · have hmi := (cachedResult_congr hre).trans hca
    have hdr := (results_dropExpired_miss hmi).trans (by rw [hre])
    simp only [hmi, Option.isSome_none, Bool.false_eq_true, if_false]
    split
    · exact .launched hca hdr
    · exact .echoed hca hro hdr results_completeDispatch
  · have hhit := (cachedResult_congr hre).trans hca
    have hke := (results_dropExpired_hit hhit).trans hre
    simp only [hhit]
    have hsh : frameOutcome server (some r) = shown server invoke r := by simp [shown, hro]
    rw [hsh]
    exact .hit hca hke

variable {orchId : OrchId}

theorem arrived_restRead (hro : invoke.route = .rest orchId) (hme : invoke.method = .sessionsRead) :
    Arrived server w id invoke (w.arriveRestRead id orchId invoke) := by
  have hkey : keyOf id invoke = (orchId, .given (invoke.msgId.getD "")) := by
    simp [keyOf, hro, hme]
  dsimp only [arriveRestRead]
  rw [← hkey]
  rcases hca : w.dispatcher.cachedResult w.clock (keyOf id invoke) with _ | r
  · have hdr := results_dropExpired_miss hca
    simp only [Option.isSome_none, Bool.false_eq_true, if_false]
    split
    · next hws => exact .refused (by simp [wellFormed, hro, hme, hws]) (.inr hdr)
    · next hws => exact .refused (by simp [wellFormed, hro, hme, hws]) (.inr hdr)
    · exact .launched hca hdr
  · have hsh : .body (some r) = shown server invoke r := by simp [shown, hro]
    rw [hsh]
    exact .hit hca (results_dropExpired_hit hca)

theorem arrived_restMessage (hro : invoke.route = .rest orchId)
    (hme : invoke.method = .sessionsMessage) :
    Arrived server w id invoke (w.arriveRestMessage id orchId invoke) := by
  unfold arriveRestMessage
  split
  · next hse =>
    exact .refused (by simp [wellFormed, hro, hme, hse]) (.inl rfl)
  next session hse =>
  have hkey : keyOf id invoke = (orchId, invoke.drawnId id) := by
    simp [keyOf, hro, hme]
  dsimp only
  rw [← hkey]
  rcases hca : w.dispatcher.cachedResult w.clock (keyOf id invoke) with _ | r
  · have hdr := results_dropExpired_miss hca
    exact .launched hca ((results_checkOrdering _ _ _).trans hdr)
  · have hsh : .body (some r) = shown server invoke r := by simp [shown, hro]
    rw [hsh]
    exact .hit hca (results_dropExpired_hit hca)

theorem arrived_rest (hro : invoke.route = .rest orchId) :
    Arrived server w id invoke (w.arriveRest id orchId invoke) := by
  unfold arriveRest
  split
  · next hme => exact arrived_restRead hro hme
  · next hme => exact arrived_restMessage hro hme
  next hre hms =>
  have hbad : ¬ invoke.wellFormed := by
    rintro (h | ⟨h, -⟩ | ⟨h, -⟩)
    · exact absurd (hro.symm.trans h) (by simp)
    · exact hre h
    · exact hms h
  exact .refused hbad (.inl rfl)

/-- The world right after a delivery was noted and before it was looked at. -/
def noted (w : World V) (invoke : Invoke) : World V :=
  { w with nextId := w.nextId + 1 }.record (.arrived w.nextId invoke w.clock)

theorem arrived_arrive (invoke : Invoke) :
    Arrived server (w.noted invoke) w.nextId invoke (w.arrive server invoke false) := by
  unfold arrive
  split
  · exact absurd ‹false = true› (by simp)
  · split
    · next hro => exact arrived_frame hro
    · next orchId hro => exact arrived_rest hro

end World

/-! ## What the end of an operation can do -/

/-- The three ways a delivery in flight can end: its result is remembered and shown, it
ends without a trace, or its error is answered and not remembered. -/
inductive Ended (server : Server V) (w : World V) (task : Task) : World V → Prop where
  | settled {d : Dispatcher V} {r : Stored V} {outcome : Outcome V}
      (hres : d.results = (w.dispatcher.rememberResult server.config w.clock task.key r).results)
      (houtcome : 0 < server.config.dedupWindowSeconds →
        outcome = World.frameOutcome server (some r)) :
      Ended server w task ({ w with dispatcher := d }.answer task.id task.invoke outcome)
  | dropped : Ended server w task (w.record (.lost task.id task.invoke))
  | failed {status : Nat} {detail : String} :
      Ended server w task ((w.record (.lost task.id task.invoke)).answer task.id task.invoke
        (.error status detail))

namespace World

variable {task : Task}

/-- What was just remembered is what the cache shows. -/
theorem cachedResult_complete (key : Key) (r : Stored V)
    (hwi : 0 < server.config.dedupWindowSeconds) :
    (w.complete server key r).dispatcher.cachedResult w.clock key = some r :=
  (cachedResult_congr results_completeDispatch).trans (cachedResult_rememberResult hwi)

theorem ended_complete (r : Stored V) :
    Ended server w task ((w.complete server task.key r).answer task.id task.invoke
      (frameOutcome server
        ((w.complete server task.key r).dispatcher.cachedResult w.clock task.key))) :=
  .settled results_completeDispatch fun hwi => by
    rw [cachedResult_complete task.key r hwi]

variable (result : HandlerEnd V)

theorem ended_finishFrame : Ended server w task (w.finishFrame server task result) := by
  rcases result with v | ⟨status, detail⟩ | text | _
  · exact ended_complete _
  · exact ended_complete _
  · exact ended_complete _
  · exact .dropped

theorem ended_finishRest : Ended server w task (w.finishRest server task result) := by
  rcases result with v | ⟨status, detail⟩ | text | _
  · simp only [finishRest]
    split
    · exact .settled rfl fun _ => rfl
    · refine .settled results_completeDispatch fun hwi => ?_
      have hca := cachedResult_complete (w := w) task.key (.value v) hwi
      exact congrArg Outcome.body hca
  · exact .failed
  · exact .failed
  · exact .dropped

/-- A finished delivery was in flight and no longer is. -/
theorem ended_finish {result : HandlerEnd V} (hfi : w.tasks.find? (·.id = id) = some task) :
    Ended server { w with tasks := w.tasks.filter (·.id ≠ id) } task (w.finish server id result) := by
  unfold finish
  rw [hfi]
  dsimp only
  split
  · exact ended_finishFrame result
  · exact ended_finishRest result

end World

end Orchestratord.Peer
