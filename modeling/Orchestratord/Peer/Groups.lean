import Orchestratord.Foundation.Dict
import Orchestratord.Foundation.Runs

/-! # Groups of peers

Each daemon keeps the members of a group for itself. One that changes them broadcasts the whole
set, and the others take it over, so that the broadcast that comes last decides. -/

namespace Orchestratord.Peer

open Foundation List Function

/-- A group, under its id. -/
structure PeerGroup where
  name : String
  members : Finset String

inductive GroupEvent
  | memberAdded
  | memberRemoved
deriving DecidableEq

/-- The body of a broadcast, as it is read: the members are listed in order, and taken as a set. -/
structure Announcement where
  event : GroupEvent
  groupId : String
  name : String
  members : Finset String
  origin : String
deriving DecidableEq

inductive GroupError
  | unknownGroup (groupId : String)
  | notGroupMember (caller groupId : String)
  | notInGroup (orchId groupId : String)

structure GroupManager (localOrchId : String) where
  groups : Dict String PeerGroup

namespace GroupManager

variable {localOrchId : String} (m : GroupManager localOrchId) (groupId orchId caller : String)

def group : Except GroupError PeerGroup :=
  (m.groups.get groupId).elim (.error (.unknownGroup groupId)) .ok

def requireMember (grp : PeerGroup) : Except GroupError Unit :=
  if caller ∈ grp.members then .ok () else .error (.notGroupMember caller groupId)

/-- The group as it is now, kept and broadcast. -/
def broadcast (grp : PeerGroup) (event : GroupEvent) : GroupManager localOrchId × Announcement :=
  (⟨m.groups.set groupId grp⟩, { grp with event, groupId, origin := localOrchId })

def addMember : Except GroupError (GroupManager localOrchId × Announcement) := do
  let grp ← m.group groupId
  requireMember groupId caller grp
  return m.broadcast groupId { grp with members := insert orchId grp.members } .memberAdded

def removeMember : Except GroupError (GroupManager localOrchId × Announcement) := do
  let grp ← m.group groupId
  requireMember groupId caller grp
  if orchId ∈ grp.members then
    return m.broadcast groupId { grp with members := grp.members.erase orchId } .memberRemoved
  else throw (.notInGroup orchId groupId)

def leave : Except GroupError (GroupManager localOrchId × Announcement) := do
  let grp ← m.group groupId
  return m.broadcast groupId { grp with members := grp.members.erase orchId } .memberRemoved

/-- Replaces the members, unless the broadcast is the daemon's own. -/
def handleMessage (body : Announcement) : GroupManager localOrchId :=
  if body.origin = localOrchId then m
  else
    let name := match m.groups.get body.groupId with
      | some grp => grp.name
      | none => if body.name = "" then body.groupId else body.name
    ⟨m.groups.set body.groupId { name, members := body.members }⟩

end GroupManager

/-! ## Daemons on one channel -/

inductive Operation
  | addMember (orchId caller : String)
  | removeMember (orchId caller : String)
  | leave (orchId : String)

def GroupManager.apply {localOrchId : String} (m : GroupManager localOrchId) (groupId : String) :
    Operation → Except GroupError (GroupManager localOrchId × Announcement)
  | .addMember orchId caller => m.addMember groupId orchId caller
  | .removeMember orchId caller => m.removeMember groupId orchId caller
  | .leave orchId => m.leave groupId orchId

/-- The daemons' managers, and the broadcasts that each has still to get. -/
structure Channel where
  managers : (daemon : String) → GroupManager daemon
  inFlight : List (String × Announcement) := []

inductive Move
  | operate (daemon groupId : String) (operation : Operation)
  | deliver (daemon : String) (body : Announcement)

namespace Channel

variable (daemons : List String) (groupId : String) (c : Channel)

def step (c : Channel) : Move → Channel
  | .operate daemon groupId operation =>
    match (c.managers daemon).apply groupId operation with
    | .error _ => c
    | .ok (manager, body) =>
      { managers := update c.managers daemon manager
        inFlight := c.inFlight ++ (daemons.filter (· ≠ daemon)).map (·, body) }
  | .deliver daemon body =>
    if (daemon, body) ∈ c.inFlight then
      { managers := update c.managers daemon ((c.managers daemon).handleMessage body)
        inFlight := c.inFlight.erase (daemon, body) }
    else c

def members (daemon : String) : Option (Finset String) :=
  ((c.managers daemon).groups.get groupId).map (·.members)

/-- All broadcasts about the group have been delivered. -/
def Delivered : Prop := ∀ sent ∈ c.inFlight, sent.2.groupId ≠ groupId

instance : Decidable (c.Delivered groupId) := inferInstanceAs (Decidable (∀ _ ∈ _, _))

/-- Nobody changes the group while a broadcast about it is on its way. -/
def Alone : Move → Prop
  | .operate _ changed _ => changed = groupId → c.Delivered groupId
  | .deliver _ _ => True

instance (move : Move) : Decidable (c.Alone groupId move) := by
  cases move <;> unfold Alone <;> infer_instance

/-- Every daemon has the members, or they are on their way to it. -/
structure Settling (members : Finset String) : Prop where
  origin : ∀ sent ∈ c.inFlight, sent.2.origin ≠ sent.1
  sent : ∀ sent ∈ c.inFlight, sent.2.groupId = groupId → sent.2.members = members
  known : ∀ daemon ∈ daemons, c.members groupId daemon = some members ∨
    ∃ body, (daemon, body) ∈ c.inFlight ∧ body.groupId = groupId

variable {daemons groupId c} {daemon changed : String} {operation : Operation}

/-- An operation that succeeds broadcasts the group as it is then. -/
theorem apply_ok {m : GroupManager daemon}
    {result : GroupManager daemon × Announcement} (h : m.apply changed operation = .ok result) :
    ∃ grp event, m.broadcast changed grp event = result := by
  have hok {α} {x : Except GroupError α} {f : α → Except GroupError (_ × _)}
      (h : (x >>= f) = .ok result) : ∃ a, f a = .ok result := by
    cases x with
    | error e => cases h
    | ok a => exact ⟨a, h⟩
  obtain ⟨_, _⟩ | ⟨_, _⟩ | _ := operation
  · obtain ⟨_, h⟩ := hok h
    obtain ⟨_, h⟩ := hok h
    exact ⟨_, _, Except.ok.inj h⟩
  · obtain ⟨_, h⟩ := hok h
    obtain ⟨_, h⟩ := hok h
    split at h
    · exact ⟨_, _, Except.ok.inj h⟩
    · cases h
  · obtain ⟨_, h⟩ := hok h
    exact ⟨_, _, Except.ok.inj h⟩

theorem members_set (daemon changed other : String) (grp : PeerGroup)
    (inFlight : List (String × Announcement)) : members groupId ⟨update c.managers daemon
      ⟨(c.managers daemon).groups.set changed grp⟩, inFlight⟩ other =
        if other = daemon ∧ groupId = changed then some grp.members
        else c.members groupId other := by
  by_cases hse : other = daemon
  · subst hse
    simp only [members, update_self, Dict.get_set, true_and]
    split <;> rfl
  · simp [members, hse]

variable {s : Finset String}

theorem Settling.operate (h : Settling daemons groupId c s)
    (hal : changed = groupId → c.Delivered groupId) :
    ∃ s, Settling daemons groupId (c.step daemons (.operate daemon changed operation)) s := by
  simp only [step]
  rcases hap : (c.managers daemon).apply changed operation with e | result
  · exact ⟨s, h⟩
  obtain ⟨grp, _, rfl⟩ := apply_ok hap
  simp only [GroupManager.broadcast]
  have hnew {sent} {body : Announcement}
      (hse : sent ∈ (daemons.filter (· ≠ daemon)).map (·, body)) :
      sent.1 ≠ daemon ∧ sent.2 = body := by
    obtain ⟨_, hot, rfl⟩ := mem_map.mp hse
    exact ⟨by simpa using (mem_filter.mp hot).2, rfl⟩
  refine ⟨if changed = groupId then grp.members else s, ?_, ?_, ?_⟩
  · intro sent hse
    rcases mem_append.mp hse with hold | hse
    · exact h.origin sent hold
    · rw [(hnew hse).2]
      exact (hnew hse).1.symm
  · intro sent hse hgr
    rcases mem_append.mp hse with hold | hse
    · rw [if_neg fun hch => hal hch sent hold hgr]
      exact h.sent sent hold hgr
    · rw [(hnew hse).2] at hgr ⊢
      exact (if_pos hgr).symm
  · intro other hot
    rw [members_set]
    by_cases hch : changed = groupId
    · by_cases hsl : other = daemon
      · simp [hch, hsl]
      · refine .inr ⟨_, mem_append_right _ (mem_map_of_mem ?_), hch⟩
        exact mem_filter.mpr ⟨hot, by simpa using hsl⟩
    · rw [if_neg hch, if_neg fun hsa => hch hsa.2.symm]
      refine (h.known other hot).imp_right ?_
      rintro ⟨body, hbo, hgr⟩
      exact ⟨body, mem_append_left _ hbo, hgr⟩

theorem Settling.deliver (h : Settling daemons groupId c s) (daemon : String)
    (body : Announcement) : Settling daemons groupId (c.step daemons (.deliver daemon body)) s := by
  simp only [step]
  split
  case isFalse => exact h
  rename_i hmem
  rw [GroupManager.handleMessage, if_neg (h.origin _ hmem)]
  refine ⟨fun sent hse => h.origin sent (mem_of_mem_erase hse),
    fun sent hse => h.sent sent (mem_of_mem_erase hse), fun other hot => ?_⟩
  rw [members_set]
  split
  case isTrue hsl => exact .inl (congrArg some (h.sent _ hmem hsl.2.symm))
  rename_i hsl
  refine (h.known other hot).imp_right ?_
  rintro ⟨body', hbo, hgr⟩
  refine ⟨body', (mem_erase_of_ne ?_).mpr hbo, hgr⟩
  rintro ⟨⟩
  exact hsl ⟨rfl, hgr.symm⟩

/-- Daemons that change a group one after the other, each after the broadcasts of the last, have
the same members whenever all broadcasts are delivered. -/
theorem members_converge (daemons : List String) (groupId : String) (c : Channel)
    (s : Finset String) (hshared : ∀ daemon ∈ daemons, c.members groupId daemon = some s)
    (hstart : c.inFlight = []) (moves : List Move)
    (halone : Guarded (step daemons) (Alone groupId) c moves)
    (hend : (runFrom (step daemons) c moves).Delivered groupId) :
    ∃ s, ∀ daemon ∈ daemons, (runFrom (step daemons) c moves).members groupId daemon = some s := by
  have hin : ∃ s, Settling daemons groupId c s :=
    ⟨s, by simp [hstart], by simp [hstart], fun daemon hmem => .inl (hshared daemon hmem)⟩
  have hst : ∀ (c : Channel) (m : Move), (∃ s, Settling daemons groupId c s) →
      Alone groupId c m → ∃ s, Settling daemons groupId (c.step daemons m) s := by
    rintro c (⟨daemon, changed, operation⟩ | ⟨daemon, body⟩) ⟨s, h⟩ hok
    · exact h.operate hok
    · exact ⟨s, h.deliver daemon body⟩
  obtain ⟨s, hs⟩ := halone.invariant hst hin
  refine ⟨s, fun daemon hmem => (hs.known daemon hmem).resolve_right ?_⟩
  rintro ⟨_, hbo, hgr⟩
  exact hend _ hbo hgr

/-- Two daemons that share a group with both of them in it. -/
def pair : Channel where
  managers _ := ⟨Dict.empty.set "g" ⟨"g", {"a", "b"}⟩⟩

def operated (daemon orchId : String) : Move := .operate daemon "g" (.addMember orchId daemon)

/-- The broadcast of a daemon that has added a third member. -/
def added (origin orchId : String) : Announcement :=
  { event := .memberAdded, groupId := "g", name := "g", members := {orchId, "a", "b"}, origin }

theorem members_converge_two :
    let c := runFrom (step ["a", "b"]) pair [operated "a" "c", .deliver "b" (added "a" "c")]
    ∃ s, ∀ daemon ∈ ["a", "b"], c.members "g" daemon = some s :=
  members_converge ["a", "b"] "g" pair {"a", "b"} (by decide +kernel) rfl _ (by decide +kernel)
    (by decide +kernel)

/-- Two daemons that add a member at the same time end with the member of the other. -/
theorem added_at_once : let c := runFrom (step ["a", "b"]) pair [operated "a" "c", operated "b" "d",
      .deliver "b" (added "a" "c"), .deliver "a" (added "b" "d")]
    c.inFlight = [] ∧ c.members "g" "a" ≠ c.members "g" "b" := by
  decide +kernel

end Channel

end Orchestratord.Peer
