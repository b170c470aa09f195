import Orchestratord.Foundation.Dict
import Orchestratord.Foundation.Runs
import Orchestratord.Foundation.Text

/-! # Who gets the messages of an origin

A session binds an origin, which may stand for many. The origins of direct messages are one
group, and binding one of a group ends the others, so a message never meets two bindings. -/

namespace Orchestratord.Gateway

open Foundation Dict Option

def wechatDirectAllOrigin : String := "wechat:direct:*:*"

def feishuDmAllOrigin : String := "feishu:dm:*:*"

def imDirectAllOrigin : String := "im:direct:*:*"

structure SessionTarget where
  sessionId : String
  hostType : String := "default"

inductive ConnectionState where
  | active
  | offline
  | terminated
deriving DecidableEq

structure BindingEntry where
  target : SessionTarget
  connectionState : ConnectionState := .active

variable (origin : String)

def originParts : List String :=
  (Text.splitAtMost ':' origin.length origin.toList).map String.ofList

/-- The keys that bind an origin, from exact to broad. -/
def bindingCandidates : List String :=
  let account (part : String) : String := if part = "" then "*" else part
  if origin = imDirectAllOrigin then [origin]
  else match originParts origin with
    | "wechat" :: "direct" :: part :: _ :: _ =>
      [origin, "wechat:direct:" ++ account part ++ ":*", wechatDirectAllOrigin, imDirectAllOrigin]
    | "feishu" :: "dm" :: part :: _ :: _ =>
      [origin, "feishu:dm:" ++ account part ++ ":*", feishuDmAllOrigin, imDirectAllOrigin]
    | _ => [origin]

def exclusiveBindingGroup : String :=
  if origin = imDirectAllOrigin then "im:direct"
  else match originParts origin with
    | "wechat" :: "direct" :: _ :: _ :: _ | "feishu" :: "dm" :: _ :: _ :: _ => "im:direct"
    | _ => origin

abbrev BindingPolicy := Dict String BindingEntry

namespace BindingPolicy

variable (p : BindingPolicy) (origin : String)

/-- End every binding of the group but the one of the origin itself. -/
def bind (target : SessionTarget) : BindingPolicy :=
  (p.filterKeys fun key =>
    key = origin ∨ exclusiveBindingGroup origin ≠ exclusiveBindingGroup key).set origin { target }

def unbind : BindingPolicy := p.erase origin

variable (sessionId : Option String)

/-- The entry of the origin, if it is of this session. -/
def entryOf : Option BindingEntry :=
  (p.get origin).filter fun entry => sessionId.all (entry.target.sessionId = ·)

def markOffline : BindingPolicy :=
  if ((p.entryOf origin sessionId).any (·.connectionState = .active)) then
    p.modify origin fun entry => { entry with connectionState := .offline }
  else p

def terminate : BindingPolicy :=
  if (p.entryOf origin sessionId).isSome then p.erase origin else p

def terminateMatching : BindingPolicy :=
  p.filterKeys fun key => exclusiveBindingGroup origin ≠ exclusiveBindingGroup key

def find : Option BindingEntry :=
  (bindingCandidates origin).findSome? fun key =>
    (p.get key).filter (·.connectionState ≠ .terminated)

/-- Without a binding the gateway hosts the session itself. -/
def route : SessionTarget :=
  match p.find origin with
  | some entry => entry.target
  | none => { sessionId := "im:default:" ++ origin }

inductive Operation where
  | bind (origin : String) (target : SessionTarget)
  | unbind (origin : String)
  | markOffline (origin : String) (sessionId : Option String)
  | terminate (origin : String) (sessionId : Option String)
  | terminateMatching (origin : String)
  /-- Of a channel, which has no part in the bindings. -/
  | reload
  /-- The bindings are not on disk. -/
  | restart

def step : Operation → BindingPolicy
  | .bind origin target => p.bind origin target
  | .unbind origin => p.unbind origin
  | .markOffline origin sessionId => p.markOffline origin sessionId
  | .terminate origin sessionId => p.terminate origin sessionId
  | .terminateMatching origin => p.terminateMatching origin
  | .reload => p
  | .restart => .empty

def Marked (operations : List Operation) : Prop :=
  ∃ origin sessionId, .markOffline origin sessionId ∈ operations

/-- No two bindings of a group, and none that is not active unless some were marked offline. -/
structure Exclusive (marked : Prop) : Prop where
  unique : ∀ a b, (p.get a).isSome → (p.get b).isSome →
    exclusiveBindingGroup a = exclusiveBindingGroup b → a = b
  live : ∀ key entry, p.get key = some entry →
    entry.connectionState = .active ∨ marked ∧ entry.connectionState = .offline

variable {p} {origin} {marked : Prop}

variable (h : p.Exclusive marked)

include h

/-- Bindings that were there before, or are marked offline. -/
theorem Exclusive.mono {q : BindingPolicy}
    (hsub : ∀ key entry, q.get key = some entry → ∃ old, p.get key = some old ∧
      (entry = old ∨ marked ∧ entry.connectionState = .offline)) : q.Exclusive marked where
  unique a b ha hb := by
    obtain ⟨x, hx⟩ := isSome_iff_exists.mp ha
    obtain ⟨y, hy⟩ := isSome_iff_exists.mp hb
    obtain ⟨_, hx, -⟩ := hsub a x hx
    obtain ⟨_, hy, -⟩ := hsub b y hy
    exact h.unique a b (hx ▸ rfl) (hy ▸ rfl)
  live key entry hen := by
    obtain ⟨old, hold, rfl | hof⟩ := hsub key entry hen
    · exact h.live key entry hold
    · exact .inr hof

theorem Exclusive.filterKeys (keep : String → Bool) : Exclusive (p.filterKeys keep) marked := by
  refine h.mono fun key entry hen => ?_
  rw [get_filterKeys] at hen
  exact ⟨entry, (ite_none_right_eq_some.mp hen).2, .inl rfl⟩

theorem Exclusive.erase : Exclusive (p.erase origin) marked := by
  refine h.mono fun key entry hen => ?_
  rw [get_erase] at hen
  exact ⟨entry, (ite_none_left_eq_some.mp hen).2, .inl rfl⟩

theorem Exclusive.bind (target : SessionTarget) : (p.bind origin target).Exclusive marked := by
  -- whatever is left of the group is the origin itself
  have hle : ∀ key, ((p.bind origin target).get key).isSome → key = origin ∨
      (p.get key).isSome ∧ exclusiveBindingGroup origin ≠ exclusiveBindingGroup key := by
    intro key hkey
    rw [BindingPolicy.bind, get_set, get_filterKeys] at hkey
    by_cases hsa : key = origin
    · exact .inl hsa
    simp only [hsa, if_false, false_or] at hkey
    split at hkey
    · rename_i hgr
      exact .inr ⟨hkey, of_decide_eq_true hgr⟩
    · cases hkey
  constructor
  · intro a b ha hb hgr
    rcases hle a ha with rfl | ⟨ha, hane⟩ <;> rcases hle b hb with rfl | ⟨hb, hbne⟩
    · rfl
    · exact absurd hgr hbne
    · exact absurd hgr.symm hane
    · exact h.unique a b ha hb hgr
  · intro key entry hen
    rw [BindingPolicy.bind, get_set] at hen
    split at hen
    · cases hen
      exact .inl rfl
    · exact (h.filterKeys _).live key entry hen

theorem Exclusive.step (operation : Operation)
    (hma : ∀ origin sessionId, operation = .markOffline origin sessionId → marked) :
    (p.step operation).Exclusive marked := by
  cases operation with
  | bind _ target => exact h.bind target
  | unbind => exact h.erase
  | markOffline origin sessionId =>
    dsimp only [BindingPolicy.step, markOffline]
    split
    · refine h.mono fun key entry hen => ?_
      rw [get_modify] at hen
      split at hen
      · obtain ⟨old, hold, rfl⟩ := map_eq_some_iff.mp hen
        exact ⟨old, hold, .inr ⟨hma origin sessionId rfl, rfl⟩⟩
      · exact ⟨entry, hen, .inl rfl⟩
    · exact h
  | terminate =>
    dsimp only [BindingPolicy.step, terminate]
    split
    · exact h.erase
    · exact h
  | terminateMatching =>
    dsimp only [BindingPolicy.step]
    exact h.filterKeys _
  | reload => exact h
  | restart => constructor <;> simp [BindingPolicy.step]

omit h

/-- After every sequence of operations no two bound origins are of one group, and a message goes
to the most specific binding of its origin, or to the gateway's own session if there is none. The
binding is active, or was marked offline. -/
theorem exclusive_binding (operations : List Operation) (origin : String) :
    let p := runFrom step .empty operations
    (∀ a b, (p.get a).isSome → (p.get b).isSome →
      exclusiveBindingGroup a = exclusiveBindingGroup b → a = b) ∧
    ((∃ broader key specific entry, bindingCandidates origin = specific ++ key :: broader ∧
        (∀ other ∈ specific, p.get other = none) ∧ p.get key = some entry ∧
        (entry.connectionState = .active ∨ Marked operations ∧ entry.connectionState = .offline) ∧
        p.route origin = entry.target) ∨
      (∀ key ∈ bindingCandidates origin, p.get key = none) ∧
        p.route origin = { sessionId := "im:default:" ++ origin }) := by
  intro p
  have hst : ∀ (q : BindingPolicy) (operation : Operation), q.Exclusive (Marked operations) →
      operation ∈ operations → (q.step operation).Exclusive (Marked operations) :=
    fun q operation h hin => h.step operation fun origin sessionId hop =>
      ⟨origin, sessionId, hop ▸ hin⟩
  have h : p.Exclusive (Marked operations) :=
    Guarded.invariant hst (.of_forall fun _ hin => hin) ⟨nofun, nofun⟩
  have hfr : ∀ key, (p.get key).filter (·.connectionState ≠ .terminated) = p.get key := by
    intro key
    cases hen : p.get key with
    | none => rfl
    | some entry =>
      rcases h.live key entry hen with hac | ⟨-, hof⟩
      · simp [hac]
      · simp [hof]
  have hfi : p.find origin = (bindingCandidates origin).findSome? p.get := by
    simp only [find, hfr]
  refine ⟨h.unique, ?_⟩
  cases hfo : p.find origin with
  | none =>
    rw [hfi, List.findSome?_eq_none_iff] at hfo
    exact .inr ⟨hfo, by rw [route, hfi, List.findSome?_eq_none_iff.mpr hfo]⟩
  | some entry =>
    have hro : p.route origin = entry.target := by rw [route, hfo]
    rw [hfi, List.findSome?_eq_some_iff] at hfo
    obtain ⟨specific, key, broader, hsp, hen, hno⟩ := hfo
    exact .inl ⟨broader, key, specific, entry, hsp, hno, hen, h.live key entry hen, hro⟩

end BindingPolicy

end Orchestratord.Gateway
