import Orchestratord.Gateway.Binding

/-! # The push to a bound session

What a write to a stream comes to is up to the outside. -/

namespace Orchestratord.Gateway

open Foundation

inductive Write where
  | written
  /-- A connection or runtime error, of the write itself or of the drain after it. -/
  | lost
  | raised

structure GatewayIpcServer where
  binding : BindingPolicy
  /-- The streams of the connected sessions. -/
  peers : Dict String ℕ

/-- What the dispatcher makes of a message: pushed to the peer, or left to its own handler. -/
inductive Receipt where
  | pushed
  | fallback
deriving DecidableEq

namespace GatewayIpcServer

variable (s : GatewayIpcServer) (authorized : Bool) (write : ℕ → Write) (origin : String)

/-- The stream of the session that the origin is bound to. An orchestrator gets no commands from
an origin that is not authenticated. -/
def addressee : Option ℕ :=
  (s.binding.find origin).bind fun entry =>
    (s.peers.get entry.target.sessionId).filter fun _ =>
      authorized || entry.target.hostType ≠ "orchestrator"

/-- The result, and the stream that the frame was written to. A connection error goes no further
than the log of `_send`. -/
def pushDeliver : Except Unit Bool × Option ℕ :=
  match s.addressee authorized origin with
  | none => (.ok false, none)
  | some writer =>
    match write writer with
    | .written => (.ok true, some writer)
    | .lost => (.ok true, none)
    | .raised => (.error (), none)

/-- The end of `process`, for the target that the message was routed to before. -/
def process (target : SessionTarget) : Receipt :=
  if target.hostType ∈ ["repl", "orchestrator", "opt_in"] ∧
      (s.pushDeliver authorized write origin).1 = .ok true then .pushed
  else .fallback

/-- The frame was written to the stream of a connected session. -/
def Received : Prop :=
  ∃ session writer, s.peers.get session = some writer ∧
    (s.pushDeliver authorized write origin).2 = some writer

theorem received_iff (hpu : (s.pushDeliver authorized write origin).1 = .ok true) :
    s.Received authorized write origin ↔
      ∀ writer, s.addressee authorized origin = some writer → write writer ≠ .lost := by
  unfold Received
  unfold pushDeliver at hpu ⊢
  cases had : s.addressee authorized origin with
  | none =>
    rw [had] at hpu
    cases hpu
  | some writer =>
    rw [had] at hpu
    simp only [Option.some.injEq, forall_eq']
    cases hwr : write writer with
    | written =>
      refine iff_of_true ?_ (by simp)
      obtain ⟨entry, -, hen⟩ := Option.bind_eq_some_iff.mp had
      exact ⟨entry.target.sessionId, writer, (Option.filter_eq_some_iff.mp hen).1, rfl⟩
    | lost =>
      refine iff_of_false ?_ fun h => h rfl
      rintro ⟨_, _, -, ⟨⟩⟩
    | raised => simp [hwr] at hpu

/-- A push that is reported has reached a session, and so has a message that counts as pushed, if
and only if the write is not lost. -/
theorem push_truthful_iff (target : SessionTarget) :
    (((s.pushDeliver authorized write origin).1 = .ok true → s.Received authorized write origin) ∧
      (s.process authorized write origin target = .pushed → s.Received authorized write origin)) ↔
    ∀ writer, s.addressee authorized origin = some writer → write writer ≠ .lost := by
  constructor
  · rintro ⟨htr, -⟩ writer had hlo
    have hpu : (s.pushDeliver authorized write origin).1 = .ok true := by
      simp [pushDeliver, had, hlo]
    exact (s.received_iff authorized write origin hpu).mp (htr hpu) writer had hlo
  · intro hwr
    have htr := fun hpu => (s.received_iff authorized write origin hpu).mpr hwr
    refine ⟨htr, fun hpr => htr ?_⟩
    by_contra hnot
    simp [process, hnot] at hpr

/-- The peer is gone, and the push to it is reported all the same. -/
theorem lost_push_reported : let target : SessionTarget := ⟨"s1", "repl"⟩
    let s : GatewayIpcServer := ⟨BindingPolicy.bind .empty "cli" target, Dict.empty.set "s1" 0⟩
    s.pushDeliver true (fun _ => .lost) "cli" = (.ok true, none) ∧
      s.process true (fun _ => .lost) "cli" target = .pushed := by
  decide +kernel

end GatewayIpcServer

end Orchestratord.Gateway
