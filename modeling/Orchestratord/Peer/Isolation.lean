import Orchestratord.Peer.Delivery

/-! # Whose results are in the cache

Every entry of the result cache comes from an execution. Its key is built from what the request
says, in each route in another way, so it names the peer and the message of that execution only if
the requests keep to some rules; then no answer crosses from one message or peer to another. -/

namespace Orchestratord.Peer

open Foundation Dispatcher World List Option Function

variable {V : Type} {server : Server V}

/-! ## Executions -/

/-- An operation that has returned a result to remember. -/
structure Execution (V : Type) where
  id : Nat
  invoke : Invoke
  result : Stored V
  deriving DecidableEq

/-- The result that a route remembers of an operation. -/
def remembered (route : Route) : HandlerEnd V → Option (Stored V)
  | .returned v => some (.value v)
  | .httpError status detail =>
    match route with
    | .frame => some (.envelope status detail)
    | .rest _ => none
  | .crashed text =>
    match route with
    | .frame => some (.envelope 500 s!"internal error: {text}")
    | .rest _ => none
  | .escaped => none

namespace World

/-- The cached result that an arriving delivery is answered with. -/
def duplicateOf (w : World V) (invoke : Invoke) (limited : Bool) : Option (Stored V) :=
  let cached := w.dispatcher.cachedResult w.clock (keyOf w.nextId invoke)
  if limited then none
  else match invoke.route, invoke.method with
    | .frame, _ => cached
    | .rest _, .sessionsRead => cached
    | .rest _, .sessionsMessage => if invoke.sessionId.isSome then cached else none
    | .rest _, _ => none

/-- The execution that a step completes, if any: a frame with an unknown method is executed on
arrival. -/
def execution? (server : Server V) (w : World V) : Input V → Option (Execution V)
  | .arrive invoke limited =>
    if ¬ limited ∧ invoke.route = .frame ∧ ¬ invoke.method.handled ∧
        w.duplicateOf invoke limited = none then
      some { id := w.nextId, invoke, result := .value (server.echo invoke) }
    else none
  | .finish id result =>
    (w.tasks.find? (·.id = id)).bind fun task =>
      (remembered task.invoke.route result).map fun stored =>
        { id := task.id, invoke := task.invoke, result := stored }
  | _ => none

end World

/-- The world with the executions so far. -/
structure Audited (V : Type) where
  world : World V := {}
  executions : List (Execution V) := []

def Audited.step (server : Server V) (a : Audited V) (input : Input V) : Audited V :=
  { world := a.world.step server input
    executions := a.executions ++ (a.world.execution? server input).toList }

/-! ## Requests that keep to their own -/

variable (home : OrchId → String)

/-- A request that names its own peer, comes from the one workspace of that peer, and has an id of
its own: one that the peer has given, or one that is drawn. -/
structure Invoke.Separate (invoke : Invoke) : Prop where
  path : invoke.ownPath
  workspace : invoke.workspaceId = home invoke.peer
  id : (∃ m, m ≠ "" ∧ invoke.msgId = some m) ∨ invoke.route ≠ .frame ∧ invoke.method ≠ .sessionsRead

/-- Every request that is admitted is separate. -/
def SeparateStep (_ : Audited V) : Input V → Prop
  | .arrive invoke limited => limited = false → invoke.Separate home
  | _ => True

/-- The answer to a request is the result of an execution, for the same peer and the same id that
the peer has given. -/
def Attributed (a : Audited V) (invoke : Invoke) (limited : Bool) : Prop :=
  ∀ r, a.world.duplicateOf invoke limited = some r → ∃ m, m ≠ "" ∧ invoke.msgId = some m ∧
      ∃ x ∈ a.executions, x.invoke.peer = invoke.peer ∧
        x.invoke.workspaceId = invoke.workspaceId ∧ x.invoke.msgId = some m ∧ x.result = r

/-! ## Where the entries come from -/

/-- Every entry of the cache is the result of an execution under its key. -/
structure CacheInv (a : Audited V) : Prop where
  entries : ∀ key entry, a.world.dispatcher.results key = some entry →
    ∃ x ∈ a.executions, keyOf x.id x.invoke = key ∧ x.result = entry.1
  executions : ∀ x ∈ a.executions, x.id < a.world.nextId ∧ x.invoke.Separate home
  tasks : ∀ task ∈ a.world.tasks, task.key = keyOf task.id task.invoke ∧
    task.id < a.world.nextId ∧ task.invoke.Separate home

variable {home : OrchId → String} {w : World V} {a : Audited V}

/-- A message id that is not given is the one that has been drawn for the delivery. -/
theorem keyOf_snd_cases (id : Nat) (invoke : Invoke) :
    (keyOf id invoke).2 = .fresh id ∨ ∃ given, (keyOf id invoke).2 = .given given := by
  unfold keyOf Invoke.drawnId
  split
  · exact .inr ⟨_, rfl⟩
  split
  · exact .inr ⟨_, rfl⟩
  · split
    · exact .inr ⟨_, rfl⟩
    · exact .inl rfl

variable {invoke : Invoke}

theorem Invoke.Separate.keyOf_drawn (h : invoke.Separate home) (id : Nat)
    (hgi : ¬ ∃ m, m ≠ "" ∧ invoke.msgId = some m) : (keyOf id invoke).2 = .fresh id := by
  obtain ⟨hro, hme⟩ := h.id.resolve_left hgi
  have hno : invoke.msgId.filter (· ≠ "") = none := by
    rcases hmsg : invoke.msgId with _ | m
    · rfl
    · have hm : m = "" := by_contra fun hm => hgi ⟨m, hm, hmsg⟩
      simp [hm]
  rcases h.path with hfr | hre
  · exact absurd hfr hro
  · rw [keyOf, hre]
    dsimp only
    rw [if_neg hme, drawnId, hno]

/-- Separate requests share a key only if they share the peer and the given id. -/
theorem Invoke.Separate.of_keyOf_eq {id id' : Nat} {invoke' : Invoke} (h : invoke.Separate home)
    (h' : invoke'.Separate home) (hid : id' < id) (hkey : keyOf id' invoke' = keyOf id invoke) :
    ∃ m, m ≠ "" ∧ invoke.msgId = some m ∧ invoke'.msgId = some m ∧ invoke'.peer = invoke.peer := by
  by_cases hgi : ∃ m, m ≠ "" ∧ invoke.msgId = some m
  · obtain ⟨m, hm, hmsg⟩ := hgi
    have htr : keyOf id invoke = (invoke.peer, .given m) := (keyOf_eq_iff hm h.path).mpr ⟨rfl, hmsg⟩
    obtain ⟨hpe, hmsg'⟩ := (keyOf_eq_iff hm h'.path).mp (hkey.trans htr)
    exact ⟨m, hm, hmsg, hmsg', hpe⟩
  · -- the drawn id is later than every id before it
    exfalso
    have hdr := h.keyOf_drawn id hgi
    rw [← hkey] at hdr
    rcases keyOf_snd_cases id' invoke' with hfr | ⟨given, hgi'⟩
    · rw [hfr] at hdr
      exact absurd (MsgId.fresh.inj hdr) (ne_of_lt hid)
    · rw [hgi'] at hdr
      cases hdr

/-! ## What a step does to the entries -/

variable {entry : Stored V × Nat} {key other : Key} {d : Dispatcher V} {now : Nat} {r : Stored V}

/-- An entry after remembering a result is that result, or was there before. -/
theorem Dispatcher.results_rememberResult_cases {config : PeerConfig}
    (h : (d.rememberResult config now key r).results other = some entry) :
    (other = key ∧ entry.1 = r) ∨ d.results other = some entry := by
  by_cases hot : other = key
  · subst hot
    left
    simp only [rememberResult, prune, update_self, filter_eq_some_iff] at h
    exact ⟨rfl, (congrArg Prod.fst (some.inj h.1)).symm⟩
  · right
    have hla : Lapses now (d.results other) ((d.rememberResult config now key r).results other) :=
      lapses_rememberResult hot
    rcases hla with hsa | ⟨hno, -⟩
    · rwa [← hsa]
    · rw [hno] at h
      cases h

theorem Dispatcher.results_dropExpired_cases
    (h : (d.dropExpired now key).results other = some entry) : d.results other = some entry := by
  unfold dropExpired at h
  split at h
  · exact h
  · by_cases hot : other = key
    · simp [hot] at h
    · simpa [update_of_ne hot] using h

variable {limited : Bool} {input : Input V} {x : Execution V}

namespace World

variable {id : Nat} {task : Task}

/-- The cache after a frame: what was there, and the echo of an unknown method. -/
theorem results_arriveFrame (hro : invoke.route = .frame)
    (h : (w.arriveFrame server id invoke).dispatcher.results key = some entry) :
    w.dispatcher.results key = some entry ∨
      (w.dispatcher.cachedResult w.clock (keyOf id invoke) = none ∧ ¬ invoke.method.handled ∧
        keyOf id invoke = key ∧ entry.1 = .value (server.echo invoke)) := by
  have hkey : keyOf id invoke = (invoke.peer, .given (invoke.msgId.getD "")) := by
    simp [keyOf, hro]
  have hre := results_orderFrame w.dispatcher invoke
  have hca : (orderFrame w.dispatcher invoke).2.cachedResult w.clock (keyOf id invoke) =
      w.dispatcher.cachedResult w.clock (keyOf id invoke) := cachedResult_congr hre
  have hdr : ((orderFrame w.dispatcher invoke).2.dropExpired w.clock (keyOf id invoke)).results
      key = some entry → w.dispatcher.results key = some entry := by
    intro hdd
    rw [← hre]
    exact results_dropExpired_cases hdd
  dsimp only [arriveFrame] at h
  rw [← hkey, hca] at h
  split at h
  · exact .inl (hdr h)
  rename_i hmi
  split at h
  · exact .inl (hdr h)
  rename_i hme
  have h := congrFun results_completeDispatch key ▸ h
  rcases results_rememberResult_cases h with ⟨hsa, hen⟩ | hold
  · exact .inr ⟨by simpa using hmi, hme, hsa.symm, hen⟩
  · exact .inl (hdr hold)

/-- The cache after an arrival: what was there, and the result of the execution if there was one. -/
theorem results_arrive (h : (w.arrive server invoke limited).dispatcher.results key = some entry) :
    w.dispatcher.results key = some entry ∨
      ∃ x, w.execution? server (.arrive invoke limited) = some x ∧ keyOf x.id x.invoke = key ∧
        x.result = entry.1 := by
  cases limited with
  | true => exact .inl h
  | false =>
    by_cases hro : invoke.route = .frame
    · have h : ((w.noted invoke).arriveFrame server w.nextId invoke).dispatcher.results key =
          some entry := by
        simpa [arrive, hro, noted] using h
      rcases results_arriveFrame hro h with hold | ⟨hca, hme, hkey, hen⟩
      · exact .inl hold
      refine .inr ⟨⟨w.nextId, invoke, .value (server.echo invoke)⟩, ?_, hkey, hen.symm⟩
      have hmi : w.duplicateOf invoke false = none := by
        simpa [duplicateOf, hro, noted, record] using hca
      simp [execution?, hro, hme, hmi]
    · have har : Arrived server (w.noted invoke) w.nextId invoke
        (w.arrive server invoke false) := arrived_arrive invoke
      generalize w.arrive server invoke false = w' at har h
      have hut : update w.dispatcher.results (keyOf w.nextId invoke) none key =
          some entry → w.dispatcher.results key = some entry := by
        intro hup
        by_cases hkey : key = keyOf w.nextId invoke
        · simp [hkey] at hup
        · simpa [update_of_ne hkey] using hup
      left
      cases har with
      | hit _ hres => exact hres ▸ h
      | launched _ hres => exact hut (hres ▸ h)
      | echoed _ hfr => exact absurd hfr hro
      | refused _ hres =>
        rcases hres with hres | hres
        · exact hres ▸ h
        · exact hut (hres ▸ h)

theorem tasks_arrive (h : task ∈ (w.arrive server invoke limited).tasks) :
    task ∈ w.tasks ∨ limited = false ∧ task.id = w.nextId ∧ task.invoke = invoke ∧
      task.key = keyOf w.nextId invoke := by
  cases limited with
  | true => exact .inl h
  | false =>
    have har : Arrived server (w.noted invoke) w.nextId invoke
      (w.arrive server invoke false) := arrived_arrive invoke
    generalize w.arrive server invoke false = w' at har h
    cases har with
    | launched =>
      rcases mem_append.mp h with hold | hnew
      · exact .inl hold
      · obtain rfl := mem_singleton.mp hnew
        exact .inr ⟨rfl, rfl, rfl, rfl⟩
    | hit | echoed | refused => exact .inl h

theorem nextId_arrive (invoke : Invoke) (limited : Bool) :
    (w.arrive server invoke limited).nextId = w.nextId + 1 := by
  cases limited with
  | true => rfl
  | false =>
    have har : Arrived server (w.noted invoke) w.nextId invoke
      (w.arrive server invoke false) := arrived_arrive invoke
    generalize w.arrive server invoke false = w' at har
    cases har <;> rfl

/-- The cache once an operation has ended. -/
def resultsAfter (server : Server V) (w : World V) (key : Key) :
    Option (Stored V) → Key → Option (Stored V × Nat)
  | some stored => (w.dispatcher.rememberResult server.config w.clock key stored).results
  | none => w.dispatcher.results

theorem results_finishFrame (task : Task) (result : HandlerEnd V) :
    (w.finishFrame server task result).dispatcher.results =
      resultsAfter server w task.key (remembered .frame result) := by
  cases result with
  | returned | httpError | crashed => exact results_completeDispatch
  | escaped => rfl

theorem results_finishRest (task : Task) (orchId : OrchId) (result : HandlerEnd V) :
    (w.finishRest server task result).dispatcher.results =
      resultsAfter server w task.key (remembered (.rest orchId) result) := by
  cases result with
  | returned =>
    simp only [finishRest]
    split
    · rfl
    · exact results_completeDispatch
  | httpError | crashed | escaped => rfl

variable {result : HandlerEnd V}

/-- The cache after the end of an operation: what was there, and its result if it is remembered. -/
theorem results_finish (hta : ∀ task ∈ w.tasks, task.key = keyOf task.id task.invoke)
    (h : (w.finish server id result).dispatcher.results key = some entry) :
    w.dispatcher.results key = some entry ∨
      ∃ x, w.execution? server (.finish id result) = some x ∧ keyOf x.id x.invoke = key ∧
        x.result = entry.1 := by
  unfold finish at h
  rcases hfi : w.tasks.find? (·.id = id) with _ | task
  · rw [hfi] at h
    exact .inl h
  rw [hfi] at h
  have hkey := hta task (mem_of_find?_eq_some hfi)
  have hrs : resultsAfter server w task.key (remembered task.invoke.route result) key =
      some entry := by
    dsimp only at h
    split at h
    case h_1 hro =>
      rwa [results_finishFrame, ← hro] at h
    case h_2 orchId hro =>
      rwa [results_finishRest _ orchId, ← hro] at h
  rcases hre : remembered task.invoke.route result with _ | stored
  · rw [hre] at hrs
    exact .inl hrs
  rw [hre] at hrs
  rcases results_rememberResult_cases hrs with ⟨hsa, hen⟩ | hold
  · refine .inr ⟨⟨task.id, task.invoke, stored⟩, ?_, (hsa.trans hkey).symm, hen.symm⟩
    simp [execution?, hfi, hre]
  · exact .inl hold

theorem tasks_finish (h : task ∈ (w.finish server id result).tasks) : task ∈ w.tasks := by
  rcases hfi : w.tasks.find? (·.id = id) with _ | found
  · rwa [finish, hfi] at h
  have hen : Ended server { w with tasks := w.tasks.filter (·.id ≠ id) } found
    (w.finish server id result) := ended_finish hfi
  generalize w.finish server id result = w' at hen h
  cases hen <;> exact mem_of_mem_filter h

theorem nextId_finish (id : Nat) (result : HandlerEnd V) :
    (w.finish server id result).nextId = w.nextId := by
  rcases hfi : w.tasks.find? (·.id = id) with _ | found
  · rw [finish, hfi]
  have hen : Ended server { w with tasks := w.tasks.filter (·.id ≠ id) } found
    (w.finish server id result) := ended_finish hfi
  generalize w.finish server id result = w' at hen
  cases hen <;> rfl

theorem results_step (hta : ∀ task ∈ w.tasks, task.key = keyOf task.id task.invoke)
    (h : (w.step server input).dispatcher.results key = some entry) :
    w.dispatcher.results key = some entry ∨
      ∃ x, w.execution? server input = some x ∧ keyOf x.id x.invoke = key ∧ x.result = entry.1 := by
  cases input with
  | arrive => exact results_arrive h
  | finish => exact results_finish hta h
  | turnDone | advance => exact .inl h

theorem tasks_step (h : task ∈ (w.step server input).tasks) :
    task ∈ w.tasks ∨ ∃ invoke, input = .arrive invoke false ∧ task.id = w.nextId ∧
      task.invoke = invoke ∧ task.key = keyOf w.nextId invoke := by
  cases input with
  | arrive invoke =>
    rcases tasks_arrive h with hold | ⟨rfl, hid, hin, hkey⟩
    · exact .inl hold
    · exact .inr ⟨invoke, rfl, hid, hin, hkey⟩
  | finish => exact .inl (tasks_finish h)
  | turnDone | advance => exact .inl h

theorem nextId_le_step (input : Input V) : w.nextId ≤ (w.step server input).nextId := by
  cases input with
  | arrive =>
    rw [step, nextId_arrive]
    exact Nat.le_succ _
  | finish => rw [step, nextId_finish]
  | turnDone | advance => exact le_refl _

/-- An answer from the cache is a live entry under the key of the delivery. -/
theorem duplicateOf_eq_some (h : w.duplicateOf invoke limited = some r) :
    limited = false ∧ ∃ expiry, w.dispatcher.results (keyOf w.nextId invoke) = some (r, expiry) := by
  have hca : limited = false ∧
      w.dispatcher.cachedResult w.clock (keyOf w.nextId invoke) = some r := by
    unfold duplicateOf at h
    cases limited with
    | true => cases h
    | false =>
      refine ⟨rfl, ?_⟩
      simp only [Bool.false_eq_true, ↓reduceIte] at h
      split at h
      · exact h
      · exact h
      · exact (ite_none_right_eq_some.mp h).2
      · cases h
  refine ⟨hca.1, ?_⟩
  have hca := hca.2
  unfold cachedResult at hca
  split at hca
  · cases hca
  case h_2 _ expiresAt hen =>
    refine ⟨expiresAt, ?_⟩
    rw [hen, some.inj (ite_none_left_eq_some.mp hca).2]

/-- The execution of a step belongs to the delivery that arrives, or to one in flight. -/
theorem execution?_cases (h : w.execution? server input = some x) :
    (∃ invoke, input = .arrive invoke false ∧ x.id = w.nextId ∧ x.invoke = invoke) ∨
      ∃ task ∈ w.tasks, x.id = task.id ∧ x.invoke = task.invoke := by
  cases input with
  | arrive invoke =>
    left
    simp only [execution?, ite_none_right_eq_some] at h
    obtain ⟨⟨hli, -⟩, hx⟩ := h
    obtain rfl := some.inj hx
    exact ⟨invoke, by simpa using hli, rfl, rfl⟩
  | finish =>
    right
    simp only [execution?, bind_eq_some_iff, map_eq_some_iff] at h
    obtain ⟨task, hfi, _, -, rfl⟩ := h
    exact ⟨task, mem_of_find?_eq_some hfi, rfl, rfl⟩
  | turnDone | advance => cases h

end World

/-! ## Along a run -/

theorem CacheInv.mem_executions (h : CacheInv home a)
    (hok : SeparateStep home a input) (hx : x ∈ (a.step server input).executions) :
    x.id < (a.step server input).world.nextId ∧ x.invoke.Separate home := by
  rcases mem_append.mp hx with hold | hnew
  · obtain ⟨hid, hse⟩ := h.executions x hold
    exact ⟨lt_of_lt_of_le hid (nextId_le_step input), hse⟩
  rcases execution?_cases (mem_toList.mp hnew) with
    ⟨invoke, rfl, hid, hin⟩ | ⟨task, hta, hid, hin⟩
  · rw [hid, hin]
    exact ⟨(nextId_arrive invoke false).symm ▸ Nat.lt_succ_self _, hok rfl⟩
  · obtain ⟨-, hlt, hse⟩ := h.tasks task hta
    rw [hid, hin]
    exact ⟨lt_of_lt_of_le hlt (nextId_le_step input), hse⟩

theorem CacheInv.step (h : CacheInv home a) (hok : SeparateStep home a input) :
    CacheInv home (a.step server input) := by
  refine ⟨?_, fun x hx => h.mem_executions hok hx, ?_⟩
  · intro key entry hen
    have hke : ∀ task ∈ a.world.tasks, task.key = keyOf task.id task.invoke := fun task hta =>
      (h.tasks task hta).1
    rcases results_step hke hen with hold | ⟨x, hx, hkey, hre⟩
    · obtain ⟨x, hx, hkey, hre⟩ := h.entries key entry hold
      exact ⟨x, mem_append_left _ hx, hkey, hre⟩
    · exact ⟨x, mem_append_right _ (mem_toList.mpr hx), hkey, hre⟩
  · intro task hta
    rcases tasks_step hta with hold | ⟨invoke, rfl, hid, hin, hkey⟩
    · obtain ⟨hkey, hlt, hse⟩ := h.tasks task hold
      exact ⟨hkey, lt_of_lt_of_le hlt (nextId_le_step input), hse⟩
    · rw [hid, hin]
      exact ⟨hkey, (nextId_arrive invoke false).symm ▸ Nat.lt_succ_self _, hok rfl⟩

theorem CacheInv.attributed (h : CacheInv home a)
    (hse : limited = false → invoke.Separate home) : Attributed a invoke limited := by
  intro r hr
  obtain ⟨hli, _, hen⟩ := duplicateOf_eq_some hr
  have hse := hse hli
  obtain ⟨x, hx, hkey, rfl⟩ := h.entries _ _ hen
  obtain ⟨hid, hse'⟩ := h.executions x hx
  obtain ⟨m, hm, hmsg, hmsg', hpe⟩ := hse.of_keyOf_eq hse' hid hkey
  refine ⟨m, hm, hmsg, x, hx, hpe, ?_, hmsg', rfl⟩
  rw [hse'.workspace, hse.workspace, hpe]

/-- In every run, of any calls of any peers and their operations ending in any order, in which each
admitted request names its own peer, comes from the one workspace of that peer and has an id of its
own, every answer from the cache is the result of an earlier execution for the same peer and the
same given id. -/
theorem answers_attributed_of_separate (server : Server V) (home : OrchId → String)
    (inputs : List (Input V)) (invoke : Invoke) (limited : Bool)
    (hrun : Guarded (Audited.step server) (SeparateStep home) {} (inputs ++ [.arrive invoke limited])) :
    Attributed (runFrom (Audited.step server) {} inputs) invoke limited := by
  have hst : ∀ (a : Audited V) i, CacheInv home a → SeparateStep home a i →
      CacheInv home (a.step server i) := fun a i h hok => h.step hok
  have hin : CacheInv home ({} : Audited V) := by
    refine ⟨?_, ?_, ?_⟩
    · rintro _ _ ⟨⟩
    · rintro x ⟨⟩
    · rintro _ ⟨⟩
  have hinv := (hrun.of_prefix (prefix_append _ _)).invariant hst hin
  exact hinv.attributed hrun.last

/-! ## Answers that cross -/

def plainServer : Server Nat where
  config := {}
  echo invoke := if invoke.method = .other "first" then 1 else 2
  accepted := 0

/-- A message that is delivered twice. -/
def sent : Invoke := { peer := "a", route := .frame, method := .sessionsMessage, msgId := some "m" }

/-- The same message of another peer, which names the first one in its path. -/
def intruding : Invoke := { sent with peer := "b", route := .rest "a", sessionId := some "s" }

/-- The second delivery is answered with the result of the first. -/
theorem redelivery_attributed :
    let a := runFrom (.step plainServer) {} [.arrive sent false, .finish 0 (.returned 7)]
    a.world.duplicateOf sent false = some (.value 7) ∧ Attributed a sent false := by
  refine ⟨by decide, ?_⟩
  apply answers_attributed_of_separate plainServer (fun _ => "") _ sent false
  have hse : sent.Separate fun _ => "" := ⟨.inl rfl, rfl, .inl ⟨"m", by decide, rfl⟩⟩
  exact ⟨fun _ => hse, trivial, fun _ => hse, trivial⟩

/-- Four runs in which an answer crosses: two frames without an id; a call that reads through the
path of another peer; one that plants its result there; and two workspaces with a peer of the same
name. -/
theorem answers_cross : let unnamed := { sent with method := .other "first", msgId := none }
    let namesake := { sent with workspaceId := "other" }
    ¬ Attributed (runFrom (.step plainServer) {} [.arrive unnamed false])
        { unnamed with method := .other "second" } false ∧
      ¬ Attributed (runFrom (.step plainServer) {}
        [.arrive sent false, .finish 0 (.returned 7)]) intruding false ∧
      ¬ Attributed (runFrom (.step plainServer) {}
        [.arrive intruding false, .finish 0 (.returned 7)]) sent false ∧
      ¬ Attributed (runFrom (.step plainServer) {}
        [.arrive sent false, .finish 0 (.returned 7)]) namesake false := by
  refine ⟨?_, ?_, ?_, ?_⟩
  · intro h
    obtain ⟨m, -, hmsg, -⟩ := h (.value 1) (by decide)
    cases hmsg
  · intro h
    obtain ⟨m, -, -, x, hx, hpe, -⟩ := h (.value 7) (by decide)
    rw [show Audited.executions _ = [⟨0, sent, .value 7⟩] by decide, mem_singleton] at hx
    rw [hx] at hpe
    exact absurd hpe (by decide)
  · intro h
    obtain ⟨m, -, -, x, hx, hpe, -⟩ := h (.value 7) (by decide)
    rw [show Audited.executions _ = [⟨0, intruding, .value 7⟩] by decide, mem_singleton] at hx
    rw [hx] at hpe
    exact absurd hpe (by decide)
  · intro h
    obtain ⟨m, -, -, x, hx, -, hwo, -⟩ := h (.value 7) (by decide)
    rw [show Audited.executions _ = [⟨0, sent, .value 7⟩] by decide, mem_singleton] at hx
    rw [hx] at hwo
    exact absurd hwo (by decide)

end Orchestratord.Peer
