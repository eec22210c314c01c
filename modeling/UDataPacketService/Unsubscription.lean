import UDataPacketService.Authentication

/-! What `unsubscribeFromAll` takes away and what it leaves. The client that leaves
is gone from every container, nobody else notices, and when the client comes back it
starts with empty queues. -/
namespace UDataPacketService
open Std (ExtTreeMap ExtTreeSet)
open OrderedContainers

/-- The context `c` is gone from the manager, and everything else is as it was. -/
structure RemovesOnly (c : ContextAddress) (manager next : SubscriptionManager) : Prop where
  free : next.Free c
  pending : ∀ d, d ≠ c →
    next.mPendingSubscriptionRequests[d]? = manager.mPendingSubscriptionRequests[d]?
  pendingAll : ∀ d, d ≠ c →
    (d ∈ next.mPendingSubscribeToAllRequests ↔ d ∈ manager.mPendingSubscribeToAllRequests)
  active : ∀ d, d ≠ c → next.mActiveSubscriptionsMap[d]? = manager.mActiveSubscriptionsMap[d]?
  streams : ∀ key, key ∈ next.mStreamsMap ↔ key ∈ manager.mStreamsMap
  stream : ∀ (key : String) (before after : Stream), manager.mStreamsMap[key]? = some before →
    next.mStreamsMap[key]? = some after →
      after.mStreamIdentifier = before.mStreamIdentifier ∧
        after.mMostRecentPacket = before.mMostRecentPacket ∧
        after.mHaveMostRecentPacket = before.mHaveMostRecentPacket ∧
        ∀ d, d ≠ c → after.mSubscribersMap[d]? = before.mSubscribersMap[d]?

namespace SubscriptionManager
variable {manager : SubscriptionManager} {c : ContextAddress}

theorem unsubscribeFromAll_streams (manager : SubscriptionManager) (c : ContextAddress) :
    (manager.unsubscribeFromAll c).mStreamsMap =
      manager.mStreamsMap.map (fun _ stream => (stream.unsubscribe c).2) :=
  unsubscribeFromStream_fold_streams c { manager with
    mPendingSubscriptionRequests := manager.mPendingSubscriptionRequests.erase c
    mPendingSubscribeToAllRequests := manager.mPendingSubscribeToAllRequests.erase c }

theorem coherent_unsubscribeFromAll (h : manager.Coherent) (c : ContextAddress) :
    (manager.unsubscribeFromAll c).Coherent :=
  coherent_step manager (.unsubscribeFromAll c) h

theorem absent_unsubscribeFromAll (h : manager.Coherent) (c : ContextAddress) :
    ¬((manager.unsubscribeFromAll c).view c).Present := by
  rw [view_unsubscribeFromAll]
  exact ClientView.not_present_unsubscribeFromAll (h c)

theorem removesOnly_unsubscribeFromAll (h : manager.Coherent) (c : ContextAddress) :
    RemovesOnly c manager (manager.unsubscribeFromAll c) := by
  have others : ∀ d, d ≠ c → (manager.unsubscribeFromAll c).view d = manager.view d :=
    fun d other => manager.view_unsubscribeFromAll_of_ne d (Ne.symm other)
  constructor
  · exact (free_iff_not_present (coherent_unsubscribeFromAll h c)).mpr
      (absent_unsubscribeFromAll h c)
  · exact fun d other => congrArg ClientView.pending (others d other)
  · intro d other
    have all : (manager.unsubscribeFromAll c).mPendingSubscribeToAllRequests.contains d =
        manager.mPendingSubscribeToAllRequests.contains d :=
      congrArg ClientView.pendingAll (others d other)
    rw [← ExtTreeSet.contains_iff_mem, all, ExtTreeSet.contains_iff_mem]
  · exact fun d other => congrArg ClientView.active (others d other)
  · intro key
    rw [unsubscribeFromAll_streams, ExtTreeMap.mem_map]
  · intro key before after there then_
    rw [unsubscribeFromAll_streams, ExtTreeMap.getElem?_map, there, Option.map_some] at then_
    obtain rfl := Option.some.inj then_
    exact ⟨rfl, rfl, rfl, fun d other => congrArg StreamView.queue
      (before.view_unsubscribe_of_ne d (Ne.symm other))⟩

/-- There is nothing left for a second call to take away. -/
theorem unsubscribeFromAll_twice (h : manager.Coherent) (c : ContextAddress) :
    (manager.unsubscribeFromAll c).unsubscribeFromAll c = manager.unsubscribeFromAll c := by
  refine SameSubscriptions.eq (fun d => ?_) rfl
  by_cases own : c = d
  · subst own
    rw [view_unsubscribeFromAll]
    exact ClientView.unsubscribeFromAll_undo (coherent_unsubscribeFromAll h c c)
      (coherent_unsubscribeFromAll h c c) (absent_unsubscribeFromAll h c) rfl (fun _ => rfl)
  · exact view_unsubscribeFromAll_of_ne d _ own

theorem absent_run (h : manager.Coherent) (absent : ¬(manager.view c).Present)
    {operations : List Operation} (others : ∀ operation ∈ operations, operation.client ≠ some c) :
    (managerMachine.run manager operations).Coherent ∧
      ¬((managerMachine.run manager operations).view c).Present := by
  induction operations generalizing manager with
  | nil => exact ⟨h, absent⟩
  | cons operation operations ih =>
      refine ih (coherent_step manager operation h) (fun present => ?_)
        (fun other member => others other (List.mem_cons_of_mem operation member))
      exact absent (manager.present_of_step c h (others operation List.mem_cons_self) present)

/-- A stream that an absent client subscribes to when it exists has an empty queue for it. -/
theorem queue_of_subscribed (h : manager.Coherent) (absent : ¬(manager.view c).Present)
    {next : SubscriptionManager} {key : String}
    (subscribed : (next.view c).streams[key]? =
      (manager.view c).streams[key]?.map (·.subscribe false)) {stream : Stream}
    (there : next.mStreamsMap[key]? = some stream) : stream.mSubscribersMap[c]? = some [] := by
  have idle := (ClientView.ignores_of_not_present (h c) absent key).1
  rw [ClientView.queueAt] at idle
  rw [view_streams_getElem?, there, Option.map_some] at subscribed
  obtain ⟨old, known, same⟩ := Option.map_eq_some_iff.mp subscribed.symm
  rw [known, Option.bind_some] at idle
  have queue : stream.queueOf c = (old.subscribe false).queue := congrArg StreamView.queue same.symm
  rw [Stream.queueOf] at queue
  rw [queue, StreamView.subscribe, idle]
  rfl

theorem view_streams_subscribe {identifiers : List StreamIdentifier} {next : SubscriptionManager}
    (taken : manager.subscribe c identifiers = .ok next) {identifier : StreamIdentifier}
    (selected : identifier ∈ identifiers) :
    (next.view c).streams[identifier.toName]? =
      (manager.view c).streams[identifier.toName]?.map (·.subscribe false) := by
  have step := view_managerMachine_step c manager (.subscribe c identifiers)
  simp only [managerMachine, taken, Reply.settle, ClientView.step, if_true] at step
  rw [step, ClientView.subscribeToNames_streams _ _ _ (distinctNames_nodup identifiers), if_pos]
  exact (mem_distinctNames identifiers _).mpr (List.mem_map_of_mem selected)

end SubscriptionManager

/-- In every reachable manager, leaving removes one client and nothing else, leaving
again changes nothing, and whatever the others do until the client subscribes again,
it starts with an empty queue at every stream that exists by then. -/
theorem unsubscribed_client_removed (options : StreamOptions) (operations : List Operation)
    (c : ContextAddress) :
    let manager := managerMachine.run (.fresh options) operations
    let next := manager.unsubscribeFromAll c
    RemovesOnly c manager next ∧ next.unsubscribeFromAll c = next ∧
      ∀ between : List Operation, (∀ operation ∈ between, operation.client ≠ some c) →
        let later := managerMachine.run next between
        (∀ (identifiers : List StreamIdentifier) (subscribed : SubscriptionManager),
          later.subscribe c identifiers = .ok subscribed → ∀ identifier ∈ identifiers,
            ∀ stream : Stream, subscribed.mStreamsMap[identifier.toName]? = some stream →
              stream.mSubscribersMap[c]? = some []) ∧
          ∀ (key : String) (stream : Stream),
            (later.subscribeToAll c).mStreamsMap[key]? = some stream →
              stream.mSubscribersMap[c]? = some [] := by
  intro manager next
  have h : manager.Coherent := run_coherent options operations
  refine ⟨SubscriptionManager.removesOnly_unsubscribeFromAll h c,
    SubscriptionManager.unsubscribeFromAll_twice h c, fun between others => ?_⟩
  obtain ⟨coherent, absent⟩ := SubscriptionManager.absent_run
    (SubscriptionManager.coherent_unsubscribeFromAll h c)
    (SubscriptionManager.absent_unsubscribeFromAll h c) others
  constructor
  · intro identifiers subscribed taken identifier selected stream there
    exact SubscriptionManager.queue_of_subscribed coherent absent
      (SubscriptionManager.view_streams_subscribe taken selected) there
  · intro key stream there
    refine SubscriptionManager.queue_of_subscribed coherent absent ?_ there
    rw [SubscriptionManager.view_subscribeToAll, ClientView.subscribeToAll_streams, if_neg]
    exact fun all => absent (.inr (.inr all))

end UDataPacketService
