import UDataPacketService.ManagerModel
import UDataPacketService.OrderedContainers

/-! The manager as one context sees it. Each call acts on the view of a context
through that view alone, except `getPackets`, whose walk depends on every
context. The operations here are the abstract account of one client. -/
namespace UDataPacketService
open Std (ExtTreeMap ExtTreeSet)
open OrderedContainers

/-- A stream with the queue of one context in place of all the queues. -/
structure StreamView where
  mOptions : StreamOptions
  mStreamIdentifier : String
  mMostRecentPacket : Packet
  mHaveMostRecentPacket : Bool
  queue : Option (List Packet)

namespace StreamView

def setNextPacket (stream : StreamView) (packet : Packet) : StreamView :=
  { stream with
    mMostRecentPacket := packet
    mHaveMostRecentPacket := true
    queue := stream.queue.map (enqueueCopy stream.mOptions.mMaximumQueueSize packet) }

def subscribe (stream : StreamView) (enqueueLatestPacket : Bool) : StreamView :=
  { stream with
    queue := some (stream.queue.getD (if enqueueLatestPacket && stream.mHaveMostRecentPacket
      then [stream.mMostRecentPacket] else [])) }

def front (stream : StreamView) : Option Packet := (stream.queue.getD []).head?

def pop (stream : StreamView) : StreamView := { stream with queue := stream.queue.map List.tail }

def unsubscribe (stream : StreamView) : StreamView := { stream with queue := none }

end StreamView

def Stream.view (c : ContextAddress) (stream : Stream) : StreamView :=
  ⟨stream.mOptions, stream.mStreamIdentifier, stream.mMostRecentPacket,
    stream.mHaveMostRecentPacket, stream.queueOf c⟩

namespace Stream
variable (c : ContextAddress) (stream : Stream)

theorem view_setNextPacket {packet : Packet} {next : Stream}
    (h : stream.setNextPacket packet = .ok next) :
    next.view c = (stream.view c).setNextPacket packet ∧
      packet.toName = stream.mStreamIdentifier := by
  simp only [setNextPacket] at h
  split_ifs at h with name
  obtain rfl := Except.ok.inj h
  refine ⟨?_, not_not.mp name⟩
  simp only [view, queueOf, StreamView.setNextPacket, ExtTreeMap.getElem?_map]

theorem construct_eq (packet : Packet) (options : StreamOptions) :
    construct packet options = .ok ⟨options, ∅, packet, packet.toName, true⟩ := by
  have empty : (∅ : ExtTreeMap ContextAddress (List Packet)).map
      (fun _ queue => enqueueCopy options.mMaximumQueueSize packet queue) = ∅ := by
    apply ExtTreeMap.ext_getElem?
    intro a
    rw [ExtTreeMap.getElem?_map, ExtTreeMap.getElem?_empty, Option.map_none]
  simp only [construct, setNextPacket, ne_eq, not_true_eq_false, if_false, empty]

theorem getNextPacket_fst : (stream.getNextPacket c).1 = (stream.view c).front := by
  unfold getNextPacket StreamView.front
  simp only [view, queueOf]
  split <;> rename_i h <;> simp [h]

theorem view_getNextPacket : (stream.getNextPacket c).2.view c = (stream.view c).pop := by
  unfold getNextPacket StreamView.pop
  simp only [view, queueOf]
  split <;> rename_i h <;> simp [h]

theorem view_getNextPacket_of_ne {d : ContextAddress} (h : d ≠ c) :
    (stream.getNextPacket d).2.view c = stream.view c := by
  unfold getNextPacket
  split
  · rfl
  · rfl
  · simp only [view, queueOf, getElem?_insert_of_ne _ _ h]

theorem subscribe_fst (enqueueLatestPacket : Bool) :
    (stream.subscribe c enqueueLatestPacket).1 = (stream.view c).queue.isNone := by
  simp only [subscribe, view, queueOf]
  by_cases h : c ∈ stream.mSubscribersMap
  · obtain ⟨queue, hq⟩ := (mem_iff_exists _ _).mp h
    rw [if_pos h, hq, Option.isNone_some]
  · rw [if_neg h, (not_mem_iff _ _).mp h, ExtTreeMap.containsThenInsertIfNew_fst,
      Bool.eq_false_iff.mpr (fun contained => h contained), Option.isNone_none, Bool.not_false]

theorem view_subscribe (enqueueLatestPacket : Bool) :
    (stream.subscribe c enqueueLatestPacket).2.view c =
      (stream.view c).subscribe enqueueLatestPacket := by
  simp only [subscribe, StreamView.subscribe, view, queueOf]
  by_cases h : c ∈ stream.mSubscribersMap
  · obtain ⟨queue, hq⟩ := (mem_iff_exists _ _).mp h
    simp only [if_pos h, hq, Option.getD_some]
  · rw [if_neg h]
    simp only [(not_mem_iff _ _).mp h, ExtTreeMap.containsThenInsertIfNew_snd,
      ExtTreeMap.getElem?_insertIfNew, Std.LawfulEqOrd.compare_eq_iff_eq, h, not_false_eq_true,
      and_self, if_true, Option.getD_none]
    rfl

theorem view_subscribe_of_ne {d : ContextAddress} (h : d ≠ c) (enqueueLatestPacket : Bool) :
    (stream.subscribe d enqueueLatestPacket).2.view c = stream.view c := by
  unfold subscribe
  split
  · rfl
  · simp only [view, queueOf, ExtTreeMap.containsThenInsertIfNew_snd,
      ExtTreeMap.getElem?_insertIfNew, Std.LawfulEqOrd.compare_eq_iff_eq, h, false_and, if_false]

/-- The size checks of `unsubscribe` never throw. -/
theorem unsubscribe_fst : (stream.unsubscribe c).1 =
    .ok (if (stream.view c).queue.isSome then .unsubscribed else .neverSubscribed) := by
  have size := ExtTreeMap.size_erase (t := stream.mSubscribersMap) (k := c)
  have seen : (stream.view c).queue.isSome = stream.mSubscribersMap.contains c := by
    simp only [view, queueOf, ExtTreeMap.isSome_getElem?_eq_contains]
  unfold unsubscribe
  simp only [seen]
  cases h : stream.mSubscribersMap.contains c with
  | false =>
      simp only [h, Bool.false_eq_true, if_false] at size ⊢
      rw [size, if_neg (not_not.mpr rfl)]
  | true =>
      have nonempty : stream.mSubscribersMap.size ≠ 0 := by
        intro zero
        rw [ExtTreeMap.eq_empty_iff_size_eq_zero.mpr zero, ExtTreeMap.contains_empty] at h
        cases h
      simp only [h, if_true] at size ⊢
      rw [size, if_neg (by omega)]

theorem view_unsubscribe : (stream.unsubscribe c).2.view c = (stream.view c).unsubscribe := by
  simp only [unsubscribe, view, queueOf, StreamView.unsubscribe, ExtTreeMap.getElem?_erase_self]

theorem view_unsubscribe_of_ne {d : ContextAddress} (h : d ≠ c) :
    (stream.unsubscribe d).2.view c = stream.view c := by
  simp only [unsubscribe, view, queueOf, getElem?_erase, if_neg h]

theorem view_unsubscribeAll : stream.unsubscribeAll.view c = (stream.view c).unsubscribe := by
  simp only [unsubscribeAll, view, queueOf, StreamView.unsubscribe, ExtTreeMap.getElem?_empty]

end Stream

/-- The manager as one context sees it. -/
@[ext]
structure ClientView where
  mStreamOptions : StreamOptions
  streams : ExtTreeMap String StreamView
  active : Option (ExtTreeSet String)
  pending : Option (ExtTreeSet String)
  pendingAll : Bool

def SubscriptionManager.view (c : ContextAddress) (manager : SubscriptionManager) : ClientView where
  mStreamOptions := manager.mStreamOptions
  streams := manager.mStreamsMap.map (fun _ stream => stream.view c)
  active := manager.mActiveSubscriptionsMap[c]?
  pending := manager.mPendingSubscriptionRequests[c]?
  pendingAll := manager.mPendingSubscribeToAllRequests.contains c

namespace ClientView

def subscribeToStream (view : ClientView) (key streamIdentifier : String)
    (enqueuePacket : Bool) : ClientView :=
  match view.streams[key]? with
  | none => view
  | some stream =>
      if stream.queue.isSome then view
      else
        { view with
          streams := view.streams.insert key (stream.subscribe enqueuePacket)
          active := some ((view.active.getD ∅).insert streamIdentifier) }

def addPending (view : ClientView) (streamIdentifier : String) : ClientView :=
  { view with pending := some ((view.pending.getD ∅).insert streamIdentifier) }

def fillPending (view : ClientView) (streamIdentifier key : String) : ClientView :=
  match view.pending with
  | none => view
  | some names =>
      if streamIdentifier ∈ names then
        { view.subscribeToStream key streamIdentifier true with
          pending := some (names.erase streamIdentifier) }
      else view

def purgeFilled (view : ClientView) : ClientView :=
  { view with pending := view.pending.filter (fun names => !names.isEmpty) }

/-- A packet that passed the checks: either its stream exists and takes it, or
the packet creates the stream and fills what was pending for it. -/
def enqueue (view : ClientView) (packet : Packet) : ClientView :=
  let name := packet.toName
  match view.streams[name]? with
  | some stream =>
      if name ≠ stream.mStreamIdentifier then view
      else { view with streams := view.streams.insert name (stream.setNextPacket packet) }
  | none =>
      let view := { view with
        streams := view.streams.insert name ⟨view.mStreamOptions, name, packet, true, none⟩ }
      let view := if view.pendingAll then view.subscribeToStream name name true else view
      (view.fillPending name name).purgeFilled

def subscribeToName (view : ClientView) (name : String) : ClientView :=
  if name ∈ view.streams then view.subscribeToStream name name false else view.addPending name

def subscribeToKey (view : ClientView) (key : String) : ClientView :=
  match view.streams[key]? with
  | none => view
  | some stream => view.subscribeToStream key stream.mStreamIdentifier false

def subscribeToAll (view : ClientView) : ClientView :=
  if view.pendingAll then view
  else { view.streams.keys.foldl subscribeToKey view with pendingAll := true }

def pull (view : ClientView) (name : String) : Option Packet × ClientView :=
  match view.streams[name]? with
  | none => (none, view)
  | some stream => (stream.front, { view with streams := view.streams.insert name stream.pop })

def pullAll (view : ClientView) : List String → List Packet × ClientView
  | [] => ([], view)
  | name :: names =>
      let next := view.pull name
      let rest := next.2.pullAll names
      (next.1.toList ++ rest.1, rest.2)

/-- The active names outlive the call only in a manager without streams. -/
def unsubscribeFromAll (view : ClientView) : ClientView where
  mStreamOptions := view.mStreamOptions
  streams := view.streams.map (fun _ stream => stream.unsubscribe)
  active := if view.streams.isEmpty then view.active else none
  pending := none
  pendingAll := false

def unsubscribeAll (view : ClientView) : ClientView where
  mStreamOptions := view.mStreamOptions
  streams := view.streams.map (fun _ stream => stream.unsubscribe)
  active := view.active
  pending := none
  pendingAll := false

end ClientView
end UDataPacketService
