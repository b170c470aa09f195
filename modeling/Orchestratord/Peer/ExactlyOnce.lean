import Orchestratord.Peer.Delivery

/-! # Exactly-once execution of a message

One peer `p` and one message id `m` are fixed; a delivery is tracked when it carries both.
A delivery that finds a tracked one still being executed, or finds the result of the first
one missing from the cache, is executed again. This module names what a run must avoid and
shows that a run that avoids it executes the message at most once and answers every
delivery alike. -/

namespace Orchestratord.Peer

open Foundation World Event Dispatcher List

variable {V : Type} {server : Server V} {p : OrchId} {m : String}

/-! ## The history of one message -/

namespace Event

def invoke : Event V → Invoke
  | .arrived _ invoke _ => invoke
  | .executed _ invoke _ => invoke
  | .answered _ invoke _ => invoke
  | .lost _ invoke => invoke

def isExecuted : Event V → Bool
  | .executed .. => true
  | _ => false

def isLost : Event V → Bool
  | .lost .. => true
  | _ => false

def arrival? : Event V → Option (Nat × Nat)
  | .arrived id _ time => some (id, time)
  | _ => none

def answer? : Event V → Option (Nat × Outcome V)
  | .answered id _ outcome => some (id, outcome)
  | _ => none

end Event

def Outcome.isError : Outcome V → Bool
  | .error .. => true
  | .body _ => false

namespace World

/-- The events of the tracked deliveries. -/
def history (p : OrchId) (m : String) (w : World V) : List (Event V) :=
  w.log.filter fun e => Tracked p m e.invoke

/-- The tracked deliveries whose operation is being awaited. -/
def inFlight (p : OrchId) (m : String) (w : World V) : List Task :=
  w.tasks.filter fun t => Tracked p m t.invoke

end World

variable (events : List (Event V))

/-- The deliveries of one message and their times, in order of arrival. -/
def arrivals : List (Nat × Nat) := events.filterMap arrival?

def answers : List (Nat × Outcome V) := events.filterMap answer?

/-- The message was executed at most once, all answers agree, and every delivery after the
first one has its answer. -/
structure ExactlyOnce : Prop where
  atMostOnce : events.countP isExecuted ≤ 1
  sameAnswer : ∀ a ∈ answers events, ∀ b ∈ answers events, a.2 = b.2
  laterAnswered : ∀ a ∈ (arrivals events).tail, ∃ b ∈ answers events, b.1 = a.1

/-! ## What a run must avoid -/

/-- A tracked delivery comes less than the dedup window after the first one. -/
def InWindow (server : Server V) (p : OrchId) (m : String) (w : World V) : Input V → Prop
  | .arrive invoke _ => Tracked p m invoke →
      w.clock < ((arrivals (w.history p m)).head?.map Prod.snd).getD w.clock +
        server.config.dedupWindowSeconds
  | _ => True

/-- The condition on one delivery: a REST call names its own peer, and a tracked delivery
is let through by the rate limiter, is well formed, finds no tracked one in flight and none
that ended without being remembered, and does not ask REST for a result that was an error
on the frame route. -/
def Prudent (p : OrchId) (m : String) (w : World V) : Input V → Prop
  | .arrive invoke limited => invoke.ownPath ∧ (Tracked p m invoke →
      limited = false ∧ invoke.wellFormed ∧ w.inFlight p m = [] ∧
      (∀ e ∈ w.history p m, e.isLost = false) ∧
      (invoke.route ≠ .frame → ∀ a ∈ answers (w.history p m), a.2.isError = false))
  | _ => True

instance (w : World V) (input : Input V) : Decidable (InWindow server p m w input) := by
  unfold InWindow
  split <;> infer_instance

instance (w : World V) (input : Input V) : Decidable (Prudent p m w input) := by
  unfold Prudent
  split <;> infer_instance

/-! ## The phases of a message -/

/-- The deliveries in flight have keys and ids of their own. -/
structure TasksOk (p : OrchId) (m : String) (w : World V) : Prop where
  key : ∀ t ∈ w.tasks, t.key = (p, .given m) ↔ Tracked p m t.invoke
  ids : (w.tasks.map Task.id).Nodup
  fresh : ∀ t ∈ w.tasks, t.id < w.nextId

/-- The history of a message whose deliveries were all answered with the result `r`, the
first of them at `start`. -/
structure Answered (server : Server V) (r : Stored V) (start : Nat) (events : List (Event V)) :
    Prop where
  executed : events.countP isExecuted ≤ 1
  answers : ∀ a ∈ answers events, a.2 = frameOutcome server (some r)
  all : ∀ a ∈ arrivals events, ∃ b ∈ Peer.answers events, b.1 = a.1
  first : (arrivals events).head?.map Prod.snd = some start

/-- Where the tracked message is: not seen yet, being executed by its first delivery, done
and remembered for the length of the window, or lost. -/
inductive Phase (server : Server V) (p : OrchId) (m : String) (w : World V) : Prop where
  | idle (hhistory : w.history p m = []) (hflight : w.inFlight p m = [])
      (hentry : w.dispatcher.results (p, .given m) = none)
  | running {t : Task} {start : Nat} {outOfOrder : Bool} (hhistory : w.history p m =
        [.arrived t.id t.invoke start, .executed t.id t.invoke outOfOrder])
      (hflight : w.inFlight p m = [t]) (hstart : start ≤ w.clock)
      (hwindow : 0 < server.config.dedupWindowSeconds)
      (hentry : w.dispatcher.results (p, .given m) = none)
  | done {r : Stored V} {start : Nat} (hanswered : Answered server r start (w.history p m))
      (hflight : w.inFlight p m = [])
      (hentry : start + server.config.dedupWindowSeconds ≤ w.clock ∨
        ∃ expiry, w.dispatcher.results (p, .given m) = some (r, expiry) ∧
          start + server.config.dedupWindowSeconds ≤ expiry)
  | lost {id start : Nat} {invoke : Invoke} {outOfOrder : Bool} {rest : List (Event V)}
      (hhistory : w.history p m =
        .arrived id invoke start :: .executed id invoke outOfOrder :: .lost id invoke :: rest)
      (hrest : rest = [] ∨ ∃ status detail, rest = [.answered id invoke (.error status detail)])
      (hflight : w.inFlight p m = [])

variable {r : Stored V} {start : Nat}

namespace Answered

variable {events : List (Event V)}

/-- One more delivery, answered like the others. -/
theorem snoc_delivery (h : Answered server r start events) (id : Nat) (invoke : Invoke)
    (time : Nat) : Answered server r start (events ++ [.arrived id invoke time,
      .answered id invoke (frameOutcome server (some r))]) where
  executed := by simpa [isExecuted] using h.executed
  answers := by
    intro a ha
    simp only [Peer.answers, filterMap_append, mem_append] at ha
    rcases ha with ha | ha
    · exact h.answers a ha
    · simp only [answer?, filterMap_cons, filterMap_nil, mem_singleton] at ha
      rw [ha]
  all := by
    intro a ha
    simp only [arrivals, Peer.answers, filterMap_append, mem_append] at ha ⊢
    rcases ha with ha | ha
    · obtain ⟨b, hb, heq⟩ := h.all a ha
      exact ⟨b, .inl hb, heq⟩
    · refine ⟨(id, frameOutcome server (some r)), .inr (by simp [answer?]), ?_⟩
      simp only [arrival?, filterMap_cons, filterMap_nil, mem_singleton] at ha
      rw [ha]
  first := by
    rw [arrivals, filterMap_append, head?_append]
    have hfi := h.first
    rw [arrivals] at hfi
    rcases hhe : (events.filterMap arrival?).head? with _ | a
    · rw [hhe] at hfi
      exact absurd hfi (by simp)
    · rw [hhe] at hfi
      simpa using hfi

/-- The first delivery, executed or not, and its answer. -/
theorem of_first (id : Nat) (invoke : Invoke) (start : Nat) {middle : List (Event V)}
    (hmi : middle = [] ∨ ∃ outOfOrder, middle = [.executed id invoke outOfOrder]) :
    Answered server r start (.arrived id invoke start :: middle ++
      [.answered id invoke (frameOutcome server (some r))]) := by
  rcases hmi with rfl | ⟨outOfOrder, rfl⟩
  · refine ⟨?_, ?_, ?_, ?_⟩
    all_goals simp [isExecuted, Peer.answers, arrivals, arrival?, answer?]
  · refine ⟨?_, ?_, ?_, ?_⟩
    all_goals simp [countP_cons, isExecuted, Peer.answers, arrivals, arrival?, answer?]

end Answered

variable {w : World V}

theorem Phase.exactlyOnce (h : Phase server p m w) : ExactlyOnce (w.history p m) := by
  rcases h with ⟨hhi, -, -⟩ | ⟨hhi, -, -, -, -⟩ | ⟨han, -, -⟩ | ⟨hhi, hre, -⟩
  · rw [hhi]
    exact ⟨by simp, by simp [answers], by simp [arrivals]⟩
  · rw [hhi]
    exact ⟨by simp [isExecuted], by simp [answers, answer?], by simp [arrivals, arrival?]⟩
  · refine ⟨han.executed, ?_, ?_⟩
    · intro a ha b hb
      exact (han.answers a ha).trans (han.answers b hb).symm
    · intro a ha
      exact han.all a (mem_of_mem_tail ha)
  · rw [hhi]
    rcases hre with rfl | ⟨status, detail, rfl⟩
    all_goals exact ⟨by simp [countP_cons, isExecuted], by simp [answers, answer?],
        by simp [arrivals, arrival?]⟩

/-! ## Steps that do not concern the message -/

/-- Nothing about the tracked message changes, but its entry may lapse. -/
structure Unaffected (p : OrchId) (m : String) (w w' : World V) : Prop where
  history : w'.history p m = w.history p m
  inFlight : w'.inFlight p m = w.inFlight p m
  clock : w.clock ≤ w'.clock
  entry : Lapses w'.clock (w.dispatcher.results (p, .given m)) (w'.dispatcher.results (p, .given m))

theorem Lapses.of_none {now : Nat} {after : Option (Stored V × Nat)} (h : Lapses now none after) :
    after = none := by
  rcases h with rfl | ⟨rfl, -⟩
  · rfl
  · rfl

variable {w' : World V}

theorem Unaffected.trans {w'' : World V} (h : Unaffected p m w w')
    (h' : Unaffected p m w' w'') : Unaffected p m w w'' where
  history := h'.history.trans h.history
  inFlight := h'.inFlight.trans h.inFlight
  clock := h.clock.trans h'.clock
  entry := by
    rcases h.entry with hsa | ⟨hno, hov⟩
    · rw [← hsa]
      exact h'.entry
    · have hgo := h'.entry
      rw [hno] at hgo
      exact .inr ⟨hgo.of_none, fun entry hen => (hov entry hen).trans h'.clock⟩

theorem Phase.unaffected (h : Phase server p m w) (hw : Unaffected p m w w') :
    Phase server p m w' := by
  obtain ⟨hhs, hfl, hcl, hla⟩ := hw
  rcases h with ⟨hhi, hft, hen⟩ | ⟨hhi, hft, hst, hwi, hen⟩ | ⟨han, hft, hen⟩ | ⟨hhi, hre, hft⟩
  · rw [hen] at hla
    exact .idle (hhs.trans hhi) (hfl.trans hft) hla.of_none
  · rw [hen] at hla
    exact .running (hhs.trans hhi) (hfl.trans hft) (hst.trans hcl) hwi hla.of_none
  · refine .done (by rwa [hhs]) (hfl.trans hft) ?_
    rcases hen with hov | ⟨expiry, hen, hex⟩
    · exact .inl (hov.trans hcl)
    · rcases hla with hsa | ⟨-, hov⟩
      · exact .inr ⟨expiry, hsa.trans hen, hex⟩
      · exact .inl (hex.trans (hov _ hen))
  · exact .lost (hhs.trans hhi) hre (hfl.trans hft)

variable {task : Task} {id : Nat} {invoke : Invoke} {result : HandlerEnd V}

namespace World

variable {e : Event V}

theorem history_record_tracked (h : Tracked p m e.invoke) :
    (w.record e).history p m = w.history p m ++ [e] := by
  simp [history, record, h]

theorem history_record_untracked (h : ¬ Tracked p m e.invoke) :
    (w.record e).history p m = w.history p m := by
  simp [history, record, h]

/-- Changing the dispatcher and recording an event of another message. -/
theorem unaffected_record {d : Dispatcher V} (h : ¬ Tracked p m e.invoke)
    (hla : Lapses w.clock (w.dispatcher.results (p, .given m)) (d.results (p, .given m))) :
    Unaffected p m w ({ w with dispatcher := d }.record e) where
  history := history_record_untracked h
  inFlight := rfl
  clock := le_refl _
  entry := hla

theorem unaffected_of_arrived (hkey : keyOf id invoke ≠ (p, .given m))
    (h : ¬ Tracked p m invoke) (har : Arrived server w id invoke w') :
    Unaffected p m w w' := by
  have hdr : ∀ {d : Dispatcher V},
      d.results = Function.update w.dispatcher.results (keyOf id invoke) none →
      d.results (p, .given m) = w.dispatcher.results (p, .given m) := by
    intro d hres
    rw [hres, Function.update_of_ne hkey.symm]
  rcases har with ⟨-, hres⟩ | ⟨-, hres⟩ | ⟨-, -, hdp, hres⟩ | ⟨-, hres⟩
  · exact unaffected_record h (.inl (by rw [hres]))
  · -- the new task is not a tracked one
    refine ⟨history_record_untracked h, ?_, le_refl _, .inl (hdr hres)⟩
    simp [inFlight, launch, record, h]
  · apply unaffected_record h
    rw [← hdr hdp, hres]
    exact lapses_rememberResult hkey.symm
  · rcases hres with hres | hres
    · exact unaffected_record h (.inl (by rw [hres]))
    · exact unaffected_record h (.inl (hdr hres))

/-- The arrival of another message. -/
theorem unaffected_arrive (hm : m ≠ "") (hpa : invoke.ownPath) (h : ¬ Tracked p m invoke)
    (limited : Bool) : Unaffected p m w (w.arrive server invoke limited) := by
  have hno : Unaffected p m w (w.noted invoke) :=
    ⟨history_record_untracked h, rfl, le_refl _, .inl rfl⟩
  apply hno.trans
  cases limited with
  | true => exact unaffected_record h (.inl rfl)
  | false =>
    have hkey : keyOf w.nextId invoke ≠ (p, .given m) := fun hk =>
      h ((keyOf_eq_iff hm hpa).mp hk)
    exact unaffected_of_arrived hkey h (arrived_arrive invoke)

theorem unaffected_of_ended (hkey : task.key ≠ (p, .given m))
    (h : ¬ Tracked p m task.invoke) (hen : Ended server w task w') : Unaffected p m w w' := by
  have hlo : Unaffected p m w (w.record (.lost task.id task.invoke)) :=
    unaffected_record h (.inl rfl)
  rcases hen with ⟨hres, -⟩ | _ | _
  · apply unaffected_record h
    rw [hres]
    exact lapses_rememberResult hkey.symm
  · exact hlo
  · exact hlo.trans (unaffected_record h (.inl rfl))

/-- The end of another message: its task goes, and the tracked ones have other ids. -/
theorem unaffected_finish (hok : TasksOk p m w) (hfi : w.tasks.find? (·.id = id) = some task)
    (h : ¬ Tracked p m task.invoke) : Unaffected p m w (w.finish server id result) := by
  have hmem := mem_of_find?_eq_some hfi
  have hid : task.id = id := by simpa using find?_some hfi
  have hkey : task.key ≠ (p, .given m) := fun hk => h ((hok.key task hmem).mp hk)
  have hft : ({ w with tasks := w.tasks.filter (·.id ≠ id) } : World V).inFlight p m =
      w.inFlight p m := by
    simp only [inFlight, filter_filter]
    apply filter_congr
    intro t ht
    by_cases htr : Tracked p m t.invoke
    · have hne : t.id ≠ id := by
        rintro rfl
        exact h ((inj_on_of_nodup_map hok.ids hmem ht hid) ▸ htr)
      simp [hne]
    · simp [htr]
  have hre : Unaffected p m w { w with tasks := w.tasks.filter (·.id ≠ id) } :=
    ⟨rfl, hft, le_refl _, .inl rfl⟩
  exact hre.trans (unaffected_of_ended hkey h (ended_finish hfi))

end World

/-! ## Steps of the message itself -/

section Message

/-- The history after a tracked delivery has come in and something was done with it. -/
theorem history_after_arrival (d : Dispatcher V) (e : Event V) (htr : Tracked p m invoke)
    (he : e.invoke = invoke) : ({ w.noted invoke with dispatcher := d }.record e).history p m =
      w.history p m ++ [.arrived w.nextId invoke w.clock, e] := by
  rw [history_record_tracked (he ▸ htr)]
  have hno : (w.noted invoke).history p m = w.history p m ++ [.arrived w.nextId invoke w.clock] :=
    history_record_tracked htr
  show (w.noted invoke).history p m ++ [e] = _
  rw [hno]
  simp

/-- The first delivery is started or, if its method is unknown, echoed. -/
theorem phase_first_arrival (hkey : keyOf w.nextId invoke = (p, .given m))
    (htr : Tracked p m invoke) (hwe : invoke.wellFormed)
    (hwi : 0 < server.config.dedupWindowSeconds)
    (har : Arrived server (w.noted invoke) w.nextId invoke w')
    (hhi : w.history p m = []) (hft : w.inFlight p m = [])
    (hen : w.dispatcher.results (p, .given m) = none) : Phase server p m w' := by
  rcases har with ⟨hca, -⟩ | @⟨d, outOfOrder, -, hres⟩ | @⟨d, d', -, -, -, hres⟩ | ⟨hbad, -⟩
  · rw [hkey] at hca
    change w.dispatcher.cachedResult w.clock _ = _ at hca
    simp [cachedResult, hen] at hca
  · have haf := history_after_arrival (w := w) d (.executed w.nextId invoke outOfOrder) htr rfl
    rw [hhi] at haf
    let task : Task := ⟨w.nextId, invoke, keyOf w.nextId invoke, outOfOrder⟩
    have hone : (w.tasks ++ [task]).filter (fun t => Tracked p m t.invoke) = [task] := by
      change w.tasks.filter _ = [] at hft
      rw [filter_append, hft]
      simp [task, htr]
    have hgo : d.results (p, .given m) = none := by
      rw [hres, hkey, Function.update_self]
    exact .running (t := task) haf hone (le_refl w.clock) hwi hgo
  · rw [hkey] at hres
    have hst : d'.results (p, .given m) = some (.value (server.echo invoke),
        w.clock + server.config.dedupWindowSeconds) := by
      rw [hres]
      exact results_rememberResult_self hwi
    have hsh : d'.cachedResult w.clock (keyOf w.nextId invoke) =
        some (.value (server.echo invoke)) := by
      rw [hkey]
      exact (cachedResult_congr hres).trans (cachedResult_rememberResult hwi)
    show Phase server p m ({ w.noted invoke with dispatcher := d' }.answer _ _
      (frameOutcome server (d'.cachedResult w.clock _)))
    rw [hsh]
    have han : Answered server (.value (server.echo invoke)) w.clock
        (({ w.noted invoke with dispatcher := d' }.answer w.nextId invoke
          (frameOutcome server (some (.value (server.echo invoke))))).history p m) := by
      rw [answer, history_after_arrival d' _ htr (by rfl), hhi]
      exact .of_first w.nextId invoke w.clock (.inl rfl)
    exact .done han hft (.inr ⟨_, hst, le_refl _⟩)
  · exact absurd hwe hbad

/-- A later delivery finds the result in the cache. On the REST route the result is shown
as it is, which is how the frame route shows every result but an envelope. -/
theorem phase_later_arrival
    (hkey : keyOf w.nextId invoke = (p, .given m)) (htr : Tracked p m invoke)
    (hin : w.clock < start + server.config.dedupWindowSeconds)
    (hno : invoke.route ≠ .frame → ∀ a ∈ answers (w.history p m), a.2.isError = false)
    (har : Arrived server (w.noted invoke) w.nextId invoke w')
    (han : Answered server r start (w.history p m)) (hft : w.inFlight p m = [])
    (hwe : invoke.wellFormed) (hen : start + server.config.dedupWindowSeconds ≤ w.clock ∨
      ∃ expiry, w.dispatcher.results (p, .given m) = some (r, expiry) ∧
        start + server.config.dedupWindowSeconds ≤ expiry) : Phase server p m w' := by
  obtain ⟨expiry, hst, hex⟩ := hen.resolve_left (by omega)
  have hca : (w.noted invoke).dispatcher.cachedResult (w.noted invoke).clock
      (keyOf w.nextId invoke) = some r := by
    show w.dispatcher.cachedResult w.clock _ = _
    rw [hkey]
    simp only [cachedResult, hst]
    rw [if_neg (by omega)]
  have hsn : shown server invoke r = frameOutcome server (some r) := by
    unfold shown
    split
    · rfl
    next orchId hro =>
    rcases r with v | ⟨status, error⟩
    · rfl
    obtain ⟨a, ha⟩ : ∃ a, (arrivals (w.history p m)).head? = some a := by
      have hfi := han.first
      rcases hhe : (arrivals (w.history p m)).head? with _ | a
      · simp [hhe] at hfi
      · exact ⟨a, rfl⟩
    obtain ⟨b, hb, -⟩ := han.all a (mem_of_mem_head? ha)
    have hsh := hno (by simp [hro]) b hb
    rw [han.answers b hb] at hsh
    exact absurd hsh (by simp [frameOutcome, Outcome.isError])
  rcases har with @⟨d, r', hhit, hres⟩ | ⟨hmi, -⟩ | ⟨hmi, -, -, -⟩ | ⟨hbad, -⟩
  · obtain rfl : r' = r := Option.some.inj (hhit.symm.trans hca)
    rw [hsn]
    have haf : Answered server r' start (({ w.noted invoke with dispatcher := d }.answer
        w.nextId invoke (frameOutcome server (some r'))).history p m) := by
      rw [answer, history_after_arrival d _ htr (by rfl)]
      exact han.snoc_delivery w.nextId invoke w.clock
    have hke : d.results (p, .given m) = some (r', expiry) := by
      rwa [hres]
    exact .done haf hft (.inr ⟨expiry, hke, hex⟩)
  · exact absurd (hmi.symm.trans hca) (by simp)
  · exact absurd (hmi.symm.trans hca) (by simp)
  · exact absurd hwe hbad

/-- A tracked delivery that meets the condition. -/
theorem Phase.arrive (hm : m ≠ "") {limited : Bool} (h : Phase server p m w)
    (hwi : InWindow server p m w (.arrive invoke limited))
    (hpr : Prudent p m w (.arrive invoke limited)) (htr : Tracked p m invoke) :
    Phase server p m (w.arrive server invoke limited) := by
  obtain ⟨hpa, hco⟩ := hpr
  obtain ⟨rfl, hwe, hnn, hnL, hnr⟩ := hco htr
  have hin := hwi htr
  have hkey : keyOf w.nextId invoke = (p, .given m) := (keyOf_eq_iff hm hpa).mpr htr
  have har : Arrived server (w.noted invoke) w.nextId invoke (w.arrive server invoke false) :=
    arrived_arrive invoke
  rcases h with ⟨hhi, hft, hen⟩ | ⟨-, hft, -, -, -⟩ |
    ⟨han, hft, hen⟩ | @⟨id, start, first, outOfOrder, rest, hhi, -, -⟩
  · rw [hhi] at hin
    have hpos : 0 < server.config.dedupWindowSeconds := by
      simpa [arrivals] using hin
    exact phase_first_arrival hkey htr hwe hpos har hhi hft hen
  · rw [hnn] at hft
    exact absurd hft (by simp)
  · rw [han.first] at hin
    exact phase_later_arrival hkey htr hin hnr har han hft hwe hen
  · have hno := hnL (.lost id first) (by rw [hhi]; simp)
    exact absurd hno (by simp [isLost])

/-- The end of the first delivery: its result is remembered, or it is lost. -/
theorem phase_first_end {outOfOrder : Bool}
    (hkey : task.key = (p, .given m)) (htr : Tracked p m task.invoke)
    (hwi : 0 < server.config.dedupWindowSeconds) (hen : Ended server w task w')
    (hhi : w.history p m =
      [.arrived task.id task.invoke start, .executed task.id task.invoke outOfOrder])
    (hft : w.inFlight p m = []) (hsta : start ≤ w.clock) : Phase server p m w' := by
  have hlo : (w.record (.lost task.id task.invoke)).history p m =
      [.arrived task.id task.invoke start, .executed task.id task.invoke outOfOrder,
        .lost task.id task.invoke] := by
    rw [history_record_tracked htr, hhi]
    rfl
  rcases hen with @⟨d, r, outcome, hres, hou⟩ | _ | @⟨status, detail⟩
  · have han : Answered server r start
        (({ w with dispatcher := d }.answer task.id task.invoke outcome).history p m) := by
      rw [answer, history_record_tracked htr, hou hwi]
      show Answered server r start (w.history p m ++ _)
      rw [hhi]
      exact .of_first task.id task.invoke start (.inr ⟨outOfOrder, rfl⟩)
    have hst : d.results (p, .given m) = some (r, w.clock + server.config.dedupWindowSeconds) := by
      rw [hres, hkey]
      exact results_rememberResult_self hwi
    exact .done han hft (.inr ⟨_, hst, by omega⟩)
  · exact .lost hlo (.inl rfl) hft
  · have hfa : ((w.record (.lost task.id task.invoke)).answer task.id task.invoke
        (.error status detail)).history p m =
        [.arrived task.id task.invoke start, .executed task.id task.invoke outOfOrder,
          .lost task.id task.invoke, .answered task.id task.invoke (.error status detail)] := by
      rw [answer, history_record_tracked htr, hlo]
      rfl
    exact .lost hfa (.inr ⟨status, detail, rfl⟩) hft

theorem Phase.finish (h : Phase server p m w)
    (hok : TasksOk p m w) (hfi : w.tasks.find? (·.id = id) = some task)
    (htr : Tracked p m task.invoke) : Phase server p m (w.finish server id result) := by
  have hid : task.id = id := by simpa using find?_some hfi
  have hmem := mem_of_find?_eq_some hfi
  have hin : task ∈ w.inFlight p m :=
    mem_filter.mpr ⟨hmem, by simpa using htr⟩
  rcases h with ⟨-, hft, -⟩ | ⟨hhi, hft, hst, hwi, -⟩ |
    ⟨-, hft, -⟩ | ⟨-, -, hft⟩
  · rw [hft] at hin
    exact absurd hin (by simp)
  · rw [hft, mem_singleton] at hin
    subst hin
    have hno : ({ w with tasks := w.tasks.filter (·.id ≠ id) } : World V).inFlight p m = [] := by
      have hco : (w.tasks.filter (·.id ≠ id)).filter (fun t => Tracked p m t.invoke) =
          (w.inFlight p m).filter (·.id ≠ id) := by
        simp only [inFlight, filter_filter, Bool.and_comm]
      rw [inFlight, hco, hft]
      simp [hid]
    exact phase_first_end ((hok.key task hmem).mpr htr) htr hwi
      (ended_finish hfi) hhi hno hst
  all_goals
    rw [hft] at hin
    exact absurd hin (by simp)

end Message

/-! ## Whole runs -/

section Runs

theorem tasksOk_of_arrived (hm : m ≠ "") (hok : TasksOk p m w) (hpa : invoke.ownPath)
    (har : Arrived server (w.noted invoke) w.nextId invoke w') : TasksOk p m w' := by
  have hne : ∀ t ∈ w.tasks, t.id < w.nextId + 1 := fun t ht =>
    (hok.fresh t ht).trans (Nat.lt_succ_self _)
  rcases har with _ | _ | _ | _
  · exact ⟨hok.key, hok.ids, hne⟩
  · -- the new task has an id above all others
    refine ⟨?_, ?_, ?_⟩
    · intro t ht
      rcases mem_append.mp ht with ht | ht
      · exact hok.key t ht
      · obtain rfl := mem_singleton.mp ht
        exact keyOf_eq_iff hm hpa
    · show ((w.tasks ++ [_]).map Task.id).Nodup
      rw [map_append, nodup_append]
      refine ⟨hok.ids, by simp, ?_⟩
      intro i hi j hj
      obtain ⟨t, ht, rfl⟩ := mem_map.mp hi
      have hlt := hok.fresh t ht
      simp only [map_cons, map_nil, mem_singleton] at hj
      omega
    · intro t ht
      rcases mem_append.mp ht with ht | ht
      · exact hne t ht
      · obtain rfl := mem_singleton.mp ht
        exact Nat.lt_succ_self _
  all_goals exact ⟨hok.key, hok.ids, hne⟩

theorem tasksOk_arrive (hm : m ≠ "") (hok : TasksOk p m w)
    (hpa : invoke.ownPath) (limited : Bool) : TasksOk p m (w.arrive server invoke limited) := by
  cases limited with
  | true => exact ⟨hok.key, hok.ids, fun t ht => (hok.fresh t ht).trans (Nat.lt_succ_self _)⟩
  | false => exact tasksOk_of_arrived hm hok hpa (arrived_arrive invoke)

/-- The end of a delivery only removes tasks. -/
theorem tasksOk_of_ended (hok : TasksOk p m w) (hen : Ended server w task w') : TasksOk p m w' := by
  rcases hen with _ | _ | _
  all_goals exact { hok with }

theorem tasksOk_finish (hok : TasksOk p m w)
    (hfi : w.tasks.find? (·.id = id) = some task) : TasksOk p m (w.finish server id result) := by
  have hre : TasksOk p m { w with tasks := w.tasks.filter (·.id ≠ id) } :=
    { key := fun t ht => hok.key t (mem_of_mem_filter ht)
      ids := hok.ids.sublist (filter_sublist.map _)
      fresh := fun t ht => hok.fresh t (mem_of_mem_filter ht) }
  exact tasksOk_of_ended hre (ended_finish hfi)

structure MessageInv (server : Server V) (p : OrchId) (m : String) (w : World V) : Prop where
  tasks : TasksOk p m w
  phase : Phase server p m w

/-- A step that meets the condition keeps the invariant. -/
theorem MessageInv.step (hm : m ≠ "") {input : Input V} (hinv : MessageInv server p m w)
    (hin : InWindow server p m w input ∧ Prudent p m w input) :
    MessageInv server p m (w.step server input) := by
  obtain ⟨hok, hph⟩ := hinv
  obtain ⟨hwi, hpr⟩ := hin
  cases input with
  | arrive invoke limited =>
    refine ⟨tasksOk_arrive hm hok hpr.1 limited, ?_⟩
    by_cases htr : Tracked p m invoke
    · exact hph.arrive hm hwi hpr htr
    · exact hph.unaffected (World.unaffected_arrive hm hpr.1 htr limited)
  | finish id result =>
    rcases hfi : w.tasks.find? (·.id = id) with _ | task
    · have hsa : w.finish server id result = w := by simp [World.finish, hfi]
      rw [World.step, hsa]
      exact ⟨hok, hph⟩
    · refine ⟨tasksOk_finish hok hfi, ?_⟩
      by_cases htr : Tracked p m task.invoke
      · exact hph.finish hok hfi htr
      · exact hph.unaffected (World.unaffected_finish hok hfi htr)
  | turnDone => exact ⟨{ hok with }, hph.unaffected ⟨rfl, rfl, le_refl _, .inl rfl⟩⟩
  | advance seconds =>
    exact ⟨{ hok with }, hph.unaffected ⟨rfl, rfl, Nat.le_add_right _ _, .inl rfl⟩⟩

/-- In every run of the server whose deliveries come within the window and meet the
condition, the message is executed at most once and every later delivery gets the first
one's result, in every state the run passes through. -/
theorem exactly_once_of_prudent (server : Server V) (p : OrchId) {m : String} (hm : m ≠ "")
    (clock : Nat) {inputs start : List (Input V)} (hrun : Guarded (step server)
      (fun w input => InWindow server p m w input ∧ Prudent p m w input) { clock } inputs)
    (hstart : start <+: inputs) :
    ExactlyOnce ((runFrom (step server) { clock } start).history p m) := by
  have hini : MessageInv server p m { clock } := ⟨⟨by simp, by simp, by simp⟩, .idle rfl rfl rfl⟩
  have hinv : MessageInv server p m (runFrom (.step server) { clock } start) :=
    hrun.throughout (fun _ _ hinv hin => hinv.step hm hin) hini hstart
  exact hinv.phase.exactlyOnce

end Runs

/-- A server whose bodies are numbers. -/
def numberServer : Server Nat where
  config := {}
  echo _ := 0
  accepted := 0

/-- A read of the peer `east` with the message id `m-1`. -/
def readCall (route : Route) : Invoke :=
  { peer := "east", route, method := .sessionsRead, msgId := some "m-1" }

/-- A frame and, once its result is there, a REST call with the same id. -/
theorem redelivery_exactly_once :
    let inputs : List (Input Nat) := [.arrive (readCall .frame) false, .finish 0 (.returned 7),
      .advance 20, .arrive (readCall (.rest "east")) false]
    let events := (runFrom (step numberServer) { clock := 0 } inputs).history "east" "m-1"
    ExactlyOnce events ∧
      answers events = [(0, .body (some (.value 7))), (1, .body (some (.value 7)))] := by
  intro inputs events
  have hrun : Guarded (.step numberServer)
      (fun w input => InWindow numberServer "east" "m-1" w input ∧ Prudent "east" "m-1" w input)
      { clock := 0 } inputs := by decide
  exact ⟨exactly_once_of_prudent numberServer "east" (by decide) 0 hrun (prefix_refl _), by decide⟩

/-- Two frames with one message id within the window, the second one while the handler of
the first is awaited: both are executed, and they are answered differently. -/
theorem overlapping_frames_execute_twice :
    let inputs : List (Input Nat) := [.arrive (readCall .frame) false,
      .arrive (readCall .frame) false, .finish 0 (.returned 7), .finish 1 (.returned 8)]
    let events := (runFrom (step numberServer) { clock := 0 } inputs).history "east" "m-1"
    Guarded (.step numberServer) (InWindow numberServer "east" "m-1") { clock := 0 } inputs ∧
      events.countP isExecuted = 2 ∧
      answers events = [(0, .body (some (.value 7))), (1, .body (some (.value 8)))] ∧
      ¬ ExactlyOnce events := by
  intro inputs events
  have htw : events.countP isExecuted = 2 := by decide
  refine ⟨by decide, htw, by decide, fun h => ?_⟩
  have hon := h.atMostOnce
  omega

end Orchestratord.Peer
