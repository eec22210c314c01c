import UDataPacketService.ManagerInvariant

/-! Who is counted as a subscriber, and what the calls do to the count. The count
is cached; a call that changes it resets the cache, and one that keeps the cache
keeps the set of subscribers. -/
namespace UDataPacketService
open Std (ExtTreeMap ExtTreeSet)
open OrderedContainers

/-- The client occurs in one of the three containers that are counted. -/
def ClientView.Present (view : ClientView) : Prop :=
  view.active.isSome ∨ view.pending.isSome ∨ view.pendingAll = true

/-- Two managers hold the same subscriptions for every client. -/
def SubscriptionManager.SameSubscriptions (manager other : SubscriptionManager) : Prop :=
  ∀ c, manager.view c = other.view c

theorem Stream.eq_of_view {first second : Stream} (same : ∀ c, first.view c = second.view c) :
    first = second := by
  obtain ⟨options, subscribers, recent, identifier, have_⟩ := first
  obtain ⟨options', subscribers', recent', identifier', have_'⟩ := second
  have queues : subscribers = subscribers' := by
    apply ExtTreeMap.ext_getElem?
    intro c
    exact congrArg StreamView.queue (same c)
  have fields := same 0
  simp only [Stream.view, StreamView.mk.injEq] at fields
  obtain ⟨rfl, rfl, rfl, rfl, -⟩ := fields
  rw [queues]

namespace SubscriptionManager

theorem SameSubscriptions.containers {manager other : SubscriptionManager}
    (same : manager.SameSubscriptions other) :
    manager.mStreamOptions = other.mStreamOptions ∧ manager.mStreamsMap = other.mStreamsMap ∧
      manager.mActiveSubscriptionsMap = other.mActiveSubscriptionsMap ∧
      manager.mPendingSubscriptionRequests = other.mPendingSubscriptionRequests ∧
      manager.mPendingSubscribeToAllRequests = other.mPendingSubscribeToAllRequests := by
  refine ⟨congrArg ClientView.mStreamOptions (same 0), ?_, ?_, ?_, ?_⟩
  · apply ExtTreeMap.ext_getElem?
    intro key
    have seen : ∀ c, manager.mStreamsMap[key]?.map (Stream.view c) =
        other.mStreamsMap[key]?.map (Stream.view c) := by
      intro c
      rw [← view_streams_getElem?, same c, view_streams_getElem?]
    cases hm : manager.mStreamsMap[key]? with
    | none =>
        have none := seen 0
        rw [hm, Option.map_none, eq_comm, Option.map_eq_none_iff] at none
        rw [none]
    | some stream =>
        obtain ⟨twin, there, -⟩ := Option.map_eq_some_iff.mp ((seen 0).symm.trans (by rw [hm]; rfl))
        have alike : ∀ c, stream.view c = twin.view c := by
          intro c
          have both := seen c
          rw [hm, there, Option.map_some, Option.map_some] at both
          exact Option.some.inj both
        rw [there, Stream.eq_of_view alike]
  · apply ExtTreeMap.ext_getElem?
    exact fun c => congrArg ClientView.active (same c)
  · apply ExtTreeMap.ext_getElem?
    exact fun c => congrArg ClientView.pending (same c)
  · apply ExtTreeSet.ext_mem
    intro c
    have all : manager.mPendingSubscribeToAllRequests.contains c =
        other.mPendingSubscribeToAllRequests.contains c := congrArg ClientView.pendingAll (same c)
    rw [← ExtTreeSet.contains_iff_mem, all, ExtTreeSet.contains_iff_mem]

/-- Two managers with the same subscriptions differ at most in the cached count. -/
theorem SameSubscriptions.eq {manager other : SubscriptionManager}
    (same : manager.SameSubscriptions other)
    (cache : manager.mNumberOfSubscribers = other.mNumberOfSubscribers) : manager = other := by
  obtain ⟨options, streams, active, pending, pendingAll⟩ := same.containers
  obtain ⟨_, _, _, _, _, _⟩ := manager
  obtain ⟨_, _, _, _, _, _⟩ := other
  simp only at options streams active pending pendingAll cache
  rw [options, streams, active, pending, pendingAll, cache]
variable (manager : SubscriptionManager)

theorem mem_allSubscribers (c : ContextAddress) :
    c ∈ manager.allSubscribers ↔ (manager.view c).Present := by
  simp only [allSubscribers, mem_foldl_insert, ExtTreeMap.mem_keys, ExtTreeSet.mem_toList,
    ExtTreeSet.not_mem_empty, or_false, ClientView.Present, view,
    ← ExtTreeMap.mem_iff_isSome_getElem?]
  rw [or_comm, or_comm (a := c ∈ manager.mPendingSubscriptionRequests), or_assoc]
  exact Iff.rfl

theorem allSubscribers_eq {manager other : SubscriptionManager}
    (h : ∀ c, (manager.view c).Present ↔ (other.view c).Present) :
    manager.allSubscribers = other.allSubscribers := by
  apply ExtTreeSet.ext_mem
  intro c
  rw [mem_allSubscribers, mem_allSubscribers, h]

theorem SameSubscriptions.allSubscribers {manager other : SubscriptionManager}
    (h : manager.SameSubscriptions other) : manager.allSubscribers = other.allSubscribers :=
  allSubscribers_eq (fun c => by rw [h c])

/-- A cached count is the number of subscribers. -/
def CountCurrent : Prop :=
  0 ≤ manager.mNumberOfSubscribers → manager.mNumberOfSubscribers = manager.allSubscribers.size

theorem getNumberOfSubscribers_fst (h : manager.CountCurrent) :
    manager.getNumberOfSubscribers.1 = manager.allSubscribers.size := by
  unfold getNumberOfSubscribers
  split
  · rename_i cached; exact h cached
  · rfl

theorem getNumberOfSubscribers_again :
    manager.getNumberOfSubscribers.2.getNumberOfSubscribers.1 = manager.getNumberOfSubscribers.1 := by
  unfold getNumberOfSubscribers
  by_cases cached : 0 ≤ manager.mNumberOfSubscribers
  · simp only [if_pos cached]
  · simp only [if_neg cached, Int.natCast_nonneg, if_true]

theorem countCurrent_getNumberOfSubscribers (h : manager.CountCurrent) :
    manager.getNumberOfSubscribers.2.CountCurrent := by
  unfold getNumberOfSubscribers
  split
  · exact h
  · exact fun _ => rfl

theorem countCurrent_of_reset (h : manager.mNumberOfSubscribers = -1) : manager.CountCurrent := by
  intro cached
  rw [h] at cached
  omega

theorem countCurrent_unsubscribeAll : manager.unsubscribeAll.CountCurrent :=
  countCurrent_getNumberOfSubscribers _ (countCurrent_of_reset _ rfl)

section Cache

@[simp] theorem subscribeToStream_cache (d : ContextAddress) (key streamIdentifier : String)
    (enqueuePacket : Bool) :
    (manager.subscribeToStream d key streamIdentifier enqueuePacket).mNumberOfSubscribers =
      manager.mNumberOfSubscribers := by
  unfold subscribeToStream addToActiveSubscriptionsMap
  split
  · rfl
  · simp only
    split <;> rfl

theorem fillPendingSubscription_cache (streamIdentifier key : String) (d : ContextAddress) :
    (fillPendingSubscription streamIdentifier key manager d).mNumberOfSubscribers =
      manager.mNumberOfSubscribers := by
  unfold fillPendingSubscription
  split
  · rfl
  · split
    · exact subscribeToStream_cache ..
    · rfl

/-- Neither the new stream nor the filled requests reset the cache. -/
theorem enqueuePacketImpl_cache (packet : Packet) :
    (Reply.settle manager (manager.enqueuePacketImpl packet)).1.mNumberOfSubscribers =
      manager.mNumberOfSubscribers := by
  simp only [enqueuePacketImpl]
  split
  · split <;> rfl
  · split
    · rfl
    · split
      · rfl
      · simp only [Reply.settle, purgeFilledRequests]
        rw [FoldFrame.foldl_frame (·.mNumberOfSubscribers) _ _
            (fun m d _ => fillPendingSubscription_cache m _ _ d),
          FoldFrame.foldl_frame (·.mNumberOfSubscribers) _ _
            (fun m d _ => subscribeToStream_cache m d _ _ _)]

theorem getPackets_cache (d : ContextAddress) :
    (manager.getPackets d).2.mNumberOfSubscribers = manager.mNumberOfSubscribers := by
  rw [getPackets_eq_walk]
  refine FoldFrame.foldl_frame (fun r : List Packet × SubscriptionManager =>
    r.2.mNumberOfSubscribers) (nextPacketFrom d) manager.walk ?_ ([], manager)
  intro result name _
  unfold nextPacketFrom
  split <;> rfl

end Cache
end SubscriptionManager

namespace ClientView
variable {view : ClientView}

/-- The first packet of a stream moves requests to subscriptions; nobody enters or leaves. -/
theorem present_enqueue (h : view.Coherent) (packet : Packet) :
    (view.enqueue packet).Present ↔ view.Present := by
  cases hs : view.streams[packet.toName]? with
  | some stream =>
      rw [view.enqueue_known packet hs (h.streams _ stream hs).identifier.symm]
      rfl
  | none =>
      rw [view.enqueue_first packet hs]
      simp only [Present]
      by_cases waits : view.Awaits packet.toName
      · simp only [if_pos waits, Option.isSome_some, true_or, true_iff]
        rcases waits with all | member
        · exact .inr (.inr all)
        · refine .inr (.inl ?_)
          cases hp : view.pending with
          | none => simp [hp] at member
          | some names => rfl
      · rw [if_neg waits]
        refine or_congr_right (or_congr_left ?_)
        cases hp : view.pending with
        | none => rfl
        | some names =>
            have absent : packet.toName ∉ names := fun member =>
              waits (.inr (by rw [hp]; exact member))
            have filled : names ≠ ∅ := fun empty => h.pending (by rw [hp, empty])
            rw [Option.map_some, set_erase_absent names absent, Option.filter_some,
              if_pos (by rw [Bool.not_eq_true', Bool.eq_false_iff, ne_eq, ExtTreeSet.isEmpty_iff]
                         exact filled)]

theorem not_present_unsubscribeFromAll (h : view.Coherent) : ¬view.unsubscribeFromAll.Present := by
  rintro (active | pending | pendingAll)
  · simp only [unsubscribeFromAll] at active
    split at active
    · rename_i empty
      obtain ⟨names, ha⟩ := Option.isSome_iff_exists.mp active
      have none : names = ∅ := by
        apply ExtTreeSet.ext_mem
        intro name
        refine iff_of_false (fun member => ?_) ExtTreeSet.not_mem_empty
        have known := h.known name (by rw [ha]; exact member)
        rw [ExtTreeMap.isEmpty_iff.mp empty] at known
        exact ExtTreeMap.not_mem_empty known
      exact h.active (ha.trans (congrArg some none))
    · cases active
  · cases pending
  · cases pendingAll

theorem present_pullAll (names : List String) : (view.pullAll names).2.Present ↔ view.Present := by
  obtain ⟨active, pending, pendingAll⟩ := view.pullAll_requests names
  rw [Present, active, pending, pendingAll, Present]

end ClientView

namespace SubscriptionManager

theorem present_getPackets (manager : SubscriptionManager) (d c : ContextAddress) :
    ((manager.getPackets d).2.view c).Present ↔ (manager.view c).Present := by
  by_cases own : d = c
  · rw [own, manager.view_getPackets]
    exact ClientView.present_pullAll _
  · rw [manager.view_getPackets_of_ne c own]

theorem countCurrent_step (manager : SubscriptionManager) (operation : Operation)
    (coherent : manager.Coherent) (h : manager.CountCurrent) :
    (managerMachine.step manager operation).1.CountCurrent := by
  have carry : ∀ {next : SubscriptionManager},
      next.mNumberOfSubscribers = manager.mNumberOfSubscribers →
      (∀ c, (next.view c).Present ↔ (manager.view c).Present) → next.CountCurrent := by
    intro next cache present cached
    rw [cache] at cached ⊢
    rw [allSubscribers_eq present]
    exact h cached
  cases operation with
  | enqueuePacket packet =>
      by_cases accepted : packet.Accepted
      · simp only [managerMachine, manager.enqueuePacket_of_accepted accepted]
        refine carry (manager.enqueuePacketImpl_cache packet) (fun c => ?_)
        rw [manager.view_enqueuePacketImpl]
        exact ClientView.present_enqueue (coherent c) packet
      · obtain ⟨what, thrown⟩ := manager.enqueuePacket_of_refused accepted
        simp only [managerMachine, thrown]
        exact h
  | subscribe d identifiers =>
      simp only [managerMachine, subscribe]
      split
      · exact h
      · split
        · exact h
        · simp only [Reply.settle, subscribeImpl]
          split
          · exact h
          · exact countCurrent_of_reset _ rfl
  | subscribeToAll d =>
      simp only [managerMachine, subscribeToAll]
      split
      · exact h
      · exact countCurrent_of_reset _ rfl
  | getPackets d =>
      exact carry (manager.getPackets_cache d) (manager.present_getPackets d)
  | unsubscribeFromAll d => exact countCurrent_of_reset _ rfl
  | unsubscribeAll => exact manager.countCurrent_unsubscribeAll
  | getNumberOfSubscribers => exact manager.countCurrent_getNumberOfSubscribers h

theorem not_present_fresh (options : StreamOptions) (c : ContextAddress) :
    ¬((fresh options).view c).Present := by
  intro present
  simp [ClientView.Present, view, fresh] at present

theorem run_countCurrent (options : StreamOptions) (operations : List Operation) :
    (managerMachine.run (fresh options) operations).CountCurrent :=
  (managerMachine.run_invariant (fun manager => manager.Coherent ∧ manager.CountCurrent)
    (fun manager operation h => ⟨coherent_step manager operation h.1,
      countCurrent_step manager operation h.1 h.2⟩)
    ⟨fresh_coherent options, countCurrent_of_reset _ rfl⟩ operations).2

variable (manager : SubscriptionManager)

def subscribers : Finset ContextAddress :=
  (manager.mActiveSubscriptionsMap.keys ++ manager.mPendingSubscriptionRequests.keys ++
    manager.mPendingSubscribeToAllRequests.toList).toFinset

theorem mem_subscribers (c : ContextAddress) :
    c ∈ manager.subscribers ↔ c ∈ manager.mActiveSubscriptionsMap ∨
      c ∈ manager.mPendingSubscriptionRequests ∨ c ∈ manager.mPendingSubscribeToAllRequests := by
  simp only [subscribers, List.mem_toFinset, List.mem_append, ExtTreeMap.mem_keys,
    ExtTreeSet.mem_toList, or_assoc]

theorem card_subscribers : manager.subscribers.card = manager.allSubscribers.size := by
  have same : manager.subscribers = manager.allSubscribers.toList.toFinset := by
    ext c
    rw [List.mem_toFinset, ExtTreeSet.mem_toList, mem_allSubscribers, mem_subscribers,
      ClientView.Present]
    simp only [view, ← ExtTreeMap.mem_iff_isSome_getElem?]
    exact Iff.rfl
  rw [same, List.toFinset_card_of_nodup (toList_nodup _), ExtTreeSet.length_toList]

/-- In every run a cached count is the size of the union, and so is every count returned. -/
theorem subscriber_count_current (options : StreamOptions) (operations : List Operation) :
    let manager := managerMachine.run (fresh options) operations
    (0 ≤ manager.mNumberOfSubscribers →
        manager.mNumberOfSubscribers = (manager.subscribers.card : Int)) ∧
      manager.getNumberOfSubscribers.1 = (manager.subscribers.card : Int) := by
  intro manager
  have current : manager.CountCurrent := run_countCurrent options operations
  rw [card_subscribers]
  exact ⟨current, manager.getNumberOfSubscribers_fst current⟩

end SubscriptionManager

namespace ClientView

theorem step_of_other {c d : ContextAddress} (walk : List String) (view : ClientView)
    {operation : Operation} (made : operation.client = some d) (other : d ≠ c) :
    view.step c walk operation = view := by
  cases operation with
  | subscribe | subscribeToAll | getPackets | unsubscribeFromAll =>
      obtain rfl := Option.some.inj made
      exact if_neg other
  | enqueuePacket | unsubscribeAll | getNumberOfSubscribers => cases made

/-- Only `getPackets` depends on the walk. -/
theorem step_walk {c : ContextAddress} (walk own : List String) (view : ClientView)
    {operation : Operation} (h : operation ≠ .getPackets c) :
    view.step c walk operation = view.step c own operation := by
  cases operation with
  | getPackets d =>
      have other : d ≠ c := fun same => h (by rw [same])
      rw [step, step, if_neg other, if_neg other]
  | enqueuePacket | subscribe | subscribeToAll | unsubscribeFromAll | unsubscribeAll
  | getNumberOfSubscribers => rfl

end ClientView

theorem SubscriptionManager.present_of_step (manager : SubscriptionManager) (c : ContextAddress)
    (coherent : manager.Coherent) {operation : Operation} (quiet : operation.client ≠ some c)
    (present : ((managerMachine.step manager operation).1.view c).Present) :
    (manager.view c).Present := by
  rw [view_managerMachine_step] at present
  cases hc : operation.client with
  | some d =>
      rwa [ClientView.step_of_other _ _ hc (fun same => quiet (by rw [hc, same]))] at present
  | none =>
      cases operation with
      | enqueuePacket packet =>
          simp only [ClientView.step] at present
          split at present
          · exact (ClientView.present_enqueue (coherent c) packet).mp present
          · exact present
      | unsubscribeAll =>
          rcases present with active | pending | pendingAll
          · exact .inl active
          · cases pending
          · cases pendingAll
      | getNumberOfSubscribers => exact present
      | subscribe | subscribeToAll | getPackets | unsubscribeFromAll => cases hc

/-- Nothing is left of any subscription. -/
structure SubscriptionManager.Purged (manager : SubscriptionManager) : Prop where
  active : ∀ c, c ∉ manager.mActiveSubscriptionsMap
  pending : ∀ c, c ∉ manager.mPendingSubscriptionRequests
  pendingAll : ∀ c, c ∉ manager.mPendingSubscribeToAllRequests
  subscribers : ∀ (key : String) (stream : Stream), manager.mStreamsMap[key]? = some stream →
    ∀ c, c ∉ stream.mSubscribersMap
  count : manager.getNumberOfSubscribers.1 = 0
  packets : ∀ c, (manager.getPackets c).1 = []

namespace SubscriptionManager

theorem getNumberOfSubscribers_containers (manager : SubscriptionManager) :
    manager.getNumberOfSubscribers.2.mActiveSubscriptionsMap = manager.mActiveSubscriptionsMap ∧
      manager.getNumberOfSubscribers.2.mPendingSubscriptionRequests =
        manager.mPendingSubscriptionRequests ∧
      manager.getNumberOfSubscribers.2.mPendingSubscribeToAllRequests =
        manager.mPendingSubscribeToAllRequests ∧
      manager.getNumberOfSubscribers.2.mStreamsMap = manager.mStreamsMap := by
  unfold getNumberOfSubscribers
  split <;> exact ⟨rfl, rfl, rfl, rfl⟩

/-- After the purge nobody receives a packet, purged from the active map or not. -/
theorem getPackets_unsubscribeAll (manager : SubscriptionManager) (c : ContextAddress) :
    (manager.unsubscribeAll.getPackets c).1 = [] := by
  rw [getPackets_fst, view_unsubscribeAll, ClientView.pullAll_idle]
  intro name
  rw [ClientView.queueAt, ClientView.unsubscribeAll, ExtTreeMap.getElem?_map]
  cases (manager.view c).streams[name]? <;> rfl

end SubscriptionManager

/-- The purge is complete exactly when no context was recorded as active. -/
theorem unsubscribeAll_purges_iff (manager : SubscriptionManager) :
    manager.unsubscribeAll.Purged ↔ ∀ c, c ∉ manager.mActiveSubscriptionsMap := by
  obtain ⟨active, pending, pendingAll, streams⟩ :=
    SubscriptionManager.getNumberOfSubscribers_containers { manager with
      mNumberOfSubscribers := -1
      mPendingSubscriptionRequests := ∅
      mPendingSubscribeToAllRequests := ∅
      mStreamsMap := manager.mStreamsMap.map (fun _ (stream : Stream) => stream.unsubscribeAll) }
  constructor
  · intro purged c
    rw [← show manager.unsubscribeAll.mActiveSubscriptionsMap = _ from active]
    exact purged.active c
  · intro empty
    have gone : ∀ c, c ∉ manager.unsubscribeAll.mActiveSubscriptionsMap := by
      intro c
      rw [show manager.unsubscribeAll.mActiveSubscriptionsMap = _ from active]
      exact empty c
    have noPending : ∀ c, c ∉ manager.unsubscribeAll.mPendingSubscriptionRequests := by
      intro c
      rw [show manager.unsubscribeAll.mPendingSubscriptionRequests = _ from pending]
      exact ExtTreeMap.not_mem_empty
    have noPendingAll : ∀ c, c ∉ manager.unsubscribeAll.mPendingSubscribeToAllRequests := by
      intro c
      rw [show manager.unsubscribeAll.mPendingSubscribeToAllRequests = _ from pendingAll]
      exact ExtTreeSet.not_mem_empty
    refine ⟨gone, noPending, noPendingAll, ?_, ?_, manager.getPackets_unsubscribeAll⟩
    · intro key stream hs c
      rw [show manager.unsubscribeAll.mStreamsMap = _ from streams, ExtTreeMap.getElem?_map] at hs
      obtain ⟨old, -, rfl⟩ := Option.map_eq_some_iff.mp hs
      exact ExtTreeMap.not_mem_empty
    · rw [manager.unsubscribeAll.getNumberOfSubscribers_fst manager.countCurrent_unsubscribeAll]
      have nobody : manager.unsubscribeAll.allSubscribers = ∅ := by
        apply ExtTreeSet.ext_mem
        intro c
        simp only [SubscriptionManager.allSubscribers, mem_foldl_insert, ExtTreeMap.mem_keys,
          ExtTreeSet.mem_toList, ExtTreeSet.not_mem_empty, gone c, noPending c, noPendingAll c,
          or_self]
      rw [nobody]
      rfl

/-- A context subscribed to one stream is still counted after the purge. -/
theorem unsubscribeAll_leaves_active :
    ¬(managerMachine.run (.fresh {}) [.subscribeToAll 7,
      .enqueuePacket (channelPacket "HHZ" 0 100)]).unsubscribeAll.Purged := by
  intro purged
  have count := purged.count
  revert count
  set_option maxRecDepth 4000 in decide

end UDataPacketService
