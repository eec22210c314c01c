import UDataPacketService.ManagerInvariant

/-! What a packet does to the view of one client, name by name. -/
namespace UDataPacketService
open Std (ExtTreeMap ExtTreeSet)
open OrderedContainers

namespace ClientView

open Classical in
noncomputable def afterPacket (view : ClientView) (packet : Packet) : StreamView :=
  match view.streams[packet.toName]? with
  | some stream => stream.setNextPacket packet
  | none => ⟨view.mStreamOptions, packet.toName, packet, true,
      if view.Awaits packet.toName then some [packet] else none⟩

/-- The view after a packet that passed the checks, name by name. -/
structure Receives (packet : Packet) (before after : ClientView) : Prop where
  options : after.mStreamOptions = before.mStreamOptions
  own : after.streams[packet.toName]? = some (before.afterPacket packet)
  others : ∀ name : String, packet.toName ≠ name → after.streams[name]? = before.streams[name]?
  active : ∀ name, name ∈ after.active.getD ∅ ↔ name ∈ before.active.getD ∅ ∨
    (packet.toName = name ∧ name ∉ before.streams ∧ before.Awaits name)
  pending : ∀ name, name ∈ after.pending.getD ∅ ↔
    name ∈ before.pending.getD ∅ ∧ packet.toName ≠ name
  pendingAll : after.pendingAll = before.pendingAll

variable {view : ClientView}

theorem Coherent.receives (h : view.Coherent) (packet : Packet) :
    view.Receives packet (view.enqueue packet) := by
  cases hs : view.streams[packet.toName]? with
  | some stream =>
      have present : packet.toName ∈ view.streams := (mem_iff_exists _ _).mpr ⟨stream, hs⟩
      rw [view.enqueue_known packet hs (h.streams _ stream hs).identifier.symm]
      constructor
      · rfl
      · rw [getElem?_insert, if_pos rfl, afterPacket, hs]
      · exact fun name other => getElem?_insert_of_ne _ _ other
      · intro name
        rw [or_iff_left]
        rintro ⟨rfl, absent, -⟩
        exact absent present
      · intro name
        rw [iff_self_and]
        rintro member rfl
        exact h.absent _ member present
      · rfl
  | none =>
      rw [view.enqueue_first packet hs]
      constructor
      · rfl
      · rw [getElem?_insert, if_pos rfl, afterPacket, hs]
      · exact fun name other => getElem?_insert_of_ne _ _ other
      · intro name
        by_cases waits : view.Awaits packet.toName
        · simp only [if_pos waits, Option.getD_some, mem_set_insert]
          rw [or_comm]
          refine or_congr_right ⟨?_, fun here => here.1⟩
          rintro rfl
          exact ⟨rfl, (not_mem_iff _ _).mpr hs, waits⟩
        · simp only [if_neg waits]
          rw [or_iff_left]
          rintro ⟨rfl, -, waits'⟩
          exact waits waits'
      · intro name
        simp only [getD_purged]
        cases view.pending with
        | none => simp
        | some names => rw [Option.map_some, Option.getD_some, mem_set_erase, and_comm, Option.getD_some]
      · rfl

namespace Receives
variable {packet : Packet} {before after : ClientView}

theorem mem_streams (h : before.Receives packet after) {name : String} (other : packet.toName ≠ name) :
    name ∈ after.streams ↔ name ∈ before.streams := by
  rw [mem_iff_exists, mem_iff_exists, h.others name other]

theorem awaits (h : before.Receives packet after) {name : String} (other : packet.toName ≠ name) :
    after.Awaits name ↔ before.Awaits name := by
  rw [Awaits, Awaits, h.pendingAll, h.pending, and_iff_left other]

theorem of_awaits (h : before.Receives packet after) {name : String} (request : after.Awaits name) :
    before.Awaits name :=
  request.imp (h.pendingAll ▸ ·) (fun member => ((h.pending name).mp member).1)

end Receives

section Enqueue
variable (name : String) {view : ClientView}

/-- An accepted packet reaches the queue of its stream, and no other queue. -/
theorem queueAt_enqueue (h : view.Coherent) (packet : Packet) :
    (view.enqueue packet).queueAt name =
      if packet.toName = name then
        (if name ∈ view.streams then (view.queueAt name).map
          (BoundedFifo.pushDropping view.mStreamOptions.mMaximumQueueSize packet)
        else open Classical in if view.Awaits name then some [packet] else none)
      else view.queueAt name := by
  have receives := h.receives packet
  by_cases here : packet.toName = name
  · subst here
    rw [if_pos rfl, queueAt, receives.own, Option.bind_some, afterPacket]
    cases hs : view.streams[packet.toName]? with
    | some stream =>
        rw [if_pos ((mem_iff_exists _ _).mpr ⟨stream, hs⟩), queueAt, hs,
          ← (h.streams _ stream hs).sameOptions]
        rfl
    | none => rw [if_neg ((not_mem_iff _ _).mpr hs)]
  · rw [if_neg here, queueAt, queueAt, receives.others name here]

theorem mem_enqueue_streams (packet : Packet) (h : view.Coherent) :
    name ∈ (view.enqueue packet).streams ↔ packet.toName = name ∨ name ∈ view.streams := by
  by_cases here : packet.toName = name
  · subst here
    exact iff_of_true ((mem_iff_exists _ _).mpr ⟨_, (h.receives packet).own⟩) (.inl rfl)
  · rw [(h.receives packet).mem_streams here, or_iff_right here]

theorem awaits_enqueue (packet : Packet) (h : view.Coherent) (other : packet.toName ≠ name) :
    (view.enqueue packet).Awaits name ↔ view.Awaits name :=
  (h.receives packet).awaits other

end Enqueue

end ClientView
end UDataPacketService
