import Orchestratord.Foundation.Json
import Orchestratord.Foundation.Text

/-! # The relay between daemons

A daemon publishes the events of its peer topics on channels that carry its id, and every relay
listens to the channels of all daemons. A relay knows its own publications by the id it parses
out of the channel, so it knows them only if parsing gives back the id that was put in. -/

namespace Orchestratord.Peer

open Foundation Text

def peerChannel (orchId topic : String) : String := "orch:peer:" ++ orchId ++ ":topic:" ++ topic

/-- The daemon and the topic of a channel; `none` outside the peers' namespace. -/
def parsePeerChannel (channel : String) : Option (String × String) :=
  match (splitAtMost ':' 4 channel.toList).map String.ofList with
  | [orch, peer, origin, word, topic] =>
    if orch != "orch" || peer != "peer" || word != "topic" || origin == "" || topic == "" then
      none
    else some (origin, topic)
  | _ => none

def isPeerTopic (topic : String) : Bool := startsWith topic "peer."

/-- The channel and the text that publishing an event puts on the wire. -/
def publish (dumps : Json → String) (orchId topic : String) (payload : Json) :
    Option (String × String) :=
  if isPeerTopic topic then
    some (peerChannel orchId topic, dumps (.obj [("topic", .str topic), ("payload", payload)]))
  else none

/-- The event that the relay of `orchId` lands in its broker as a remote one. -/
def handleChannel (loads : String → Option Json) (orchId : String) (channel data : Json) :
    Option (String × Json) := do
  let (origin, topic) ← parsePeerChannel (← channel.str?)
  -- the echo guard
  if origin == orchId then none
  else
    let frame ← (← loads (← data.str?)).fields?
    return (topic, .get frame "payload")

/-- Whatever stands before the third colon is taken for the id of the daemon. -/
theorem split_channel {origin : List Char} (h : ':' ∉ origin) (rest : List Char) :
    splitAtMost ':' 4 ("orch:peer:".toList ++ (origin ++ ':' :: rest)) =
      "orch".toList :: "peer".toList :: origin :: splitAtMost ':' 1 rest := by
  have hor := splitAtMost_append (show ':' ∉ "orch".toList by decide) 3
    ("peer:".toList ++ (origin ++ ':' :: rest))
  have hpe := splitAtMost_append (show ':' ∉ "peer".toList by decide) 2 (origin ++ ':' :: rest)
  exact hor.trans (congrArg _ (hpe.trans (congrArg _ (splitAtMost_append h 1 rest))))

variable {orchId topic : String}

theorem parse_peerChannel (hid : orchId ≠ "") (hto : topic ≠ "") (h : ':' ∉ orchId.toList) :
    parsePeerChannel (peerChannel orchId topic) = some (orchId, topic) := by
  have hch : (peerChannel orchId topic).toList =
      "orch:peer:".toList ++ (orchId.toList ++ ':' :: ("topic".toList ++ ':' :: topic.toList)) := by
    simp [peerChannel]
  rw [parsePeerChannel, hch, split_channel h]
  simp [splitAtMost, hid, hto]

/-- An id with a colon is cut there. -/
theorem parse_peerChannel_ne (h : ':' ∈ orchId.toList) :
    parsePeerChannel (peerChannel orchId topic) ≠ some (orchId, topic) := by
  obtain ⟨before, after, hid, hbe⟩ := List.eq_append_cons_of_mem h
  have hch : (peerChannel orchId topic).toList =
      "orch:peer:".toList ++ (before ++ ':' :: (after ++ ":topic:".toList ++ topic.toList)) := by
    simp [peerChannel, hid]
  have hcut : String.ofList before ≠ orchId := by
    rintro rfl
    exact hbe (by simpa using h)
  rw [parsePeerChannel, hch, split_channel hbe]
  intro hpa
  split at hpa
  · rename_i hpr
    simp only [List.map_cons, List.cons.injEq] at hpr
    split at hpa
    · exact nomatch hpa
    · exact hcut (hpr.2.2.1.trans (congrArg Prod.fst (Option.some.inj hpa)))
  · exact nomatch hpa

/-- A channel gives back the daemon and the topic it was made of, and no publication of the daemon
comes back to it as a remote one, exactly if the id of the daemon has no colon. -/
theorem relay_faithful_iff (loads : String → Option Json) (dumps : Json → String)
    (hid : orchId ≠ "") (htopic : topic ≠ "") :
    (parsePeerChannel (peerChannel orchId topic) = some (orchId, topic) ∧
      ∀ payload, ∀ message ∈ publish dumps orchId topic payload,
        handleChannel loads orchId (.str message.1) (.str message.2) = none) ↔
      ':' ∉ orchId.toList := by
  constructor
  · rintro ⟨hpa, -⟩ hco
    exact parse_peerChannel_ne hco hpa
  intro hco
  have hpa := parse_peerChannel hid htopic hco
  refine ⟨hpa, fun payload message hme => ?_⟩
  obtain ⟨-, hse⟩ := Option.ite_none_right_eq_some.mp hme
  obtain rfl := Option.some.inj hse
  simp [handleChannel, hpa]

theorem relay_faithful_plain : parsePeerChannel (peerChannel "orch-1" "peer.agent.a:1.events") =
      some ("orch-1", "peer.agent.a:1.events") :=
  ((relay_faithful_iff (fun _ => none) (fun _ => "") (by decide) (by decide)).mpr (by decide)).1

/-- The daemon `a:topic:b` takes its own event for one of the daemon `a`. -/
theorem echo_of_colon :
    let loads := fun _ => some (.obj [("topic", .str "peer.x"), ("payload", .int 1)])
    (publish (fun _ => "text") "a:topic:b" "peer.x" (.int 1)).bind
        (fun message => handleChannel loads "a:topic:b" (.str message.1) (.str message.2)) =
      some ("b:topic:peer.x", .int 1) := by
  rfl

end Orchestratord.Peer
