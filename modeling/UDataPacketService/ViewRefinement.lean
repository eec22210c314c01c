import UDataPacketService.ClientView

/-! Every call of the manager, seen by one context, is the call of the client
view; a call made by another context is invisible, and `getPackets` pulls along
the walk over all active subscriptions. -/
namespace UDataPacketService
open Std (ExtTreeMap ExtTreeSet)
open OrderedContainers

namespace SubscriptionManager
variable (c : ContextAddress) (manager : SubscriptionManager)

@[simp] theorem view_streams_getElem? (key : String) :
    (manager.view c).streams[key]? = manager.mStreamsMap[key]?.map (Stream.view c) :=
  ExtTreeMap.getElem?_map

theorem view_streams_insert (key : String) (stream : Stream) :
    ({ manager with mStreamsMap := manager.mStreamsMap.insert key stream }).view c =
      { manager.view c with
        streams := (manager.view c).streams.insert key (stream.view c) } := by
  simp only [view, map_insert]

theorem view_streams_insert_same {key : String} {stream next : Stream}
    (h : manager.mStreamsMap[key]? = some stream) (same : next.view c = stream.view c) :
    ({ manager with mStreamsMap := manager.mStreamsMap.insert key next }).view c =
      manager.view c := by
  rw [view_streams_insert, same, insert_same]
  rw [view_streams_getElem?, h, Option.map_some]

theorem view_addToActive (streamIdentifier : String) :
    (manager.addToActiveSubscriptionsMap c streamIdentifier).view c =
      { manager.view c with
        active := some (((manager.view c).active.getD ∅).insert streamIdentifier) } := by
  simp only [addToActiveSubscriptionsMap, view, ExtTreeMap.getElem?_insert_self]
  cases manager.mActiveSubscriptionsMap[c]? <;> rfl

theorem view_addToActive_of_ne {d : ContextAddress} (h : d ≠ c) (streamIdentifier : String) :
    (manager.addToActiveSubscriptionsMap d streamIdentifier).view c = manager.view c := by
  simp only [addToActiveSubscriptionsMap, view, getElem?_insert_of_ne _ _ h]

theorem view_subscribeToStream (key streamIdentifier : String) (enqueuePacket : Bool) :
    (manager.subscribeToStream c key streamIdentifier enqueuePacket).view c =
      (manager.view c).subscribeToStream key streamIdentifier enqueuePacket := by
  simp only [subscribeToStream, ClientView.subscribeToStream, view_streams_getElem?]
  cases h : manager.mStreamsMap[key]? with
  | none => rfl
  | some stream =>
      simp only [Option.map_some, stream.subscribe_fst]
      have next := stream.view_subscribe c enqueuePacket
      cases hq : (stream.view c).queue with
      | none =>
          simp only [Option.isNone_none, if_true, Option.isSome_none, Bool.false_eq_true, if_false]
          rw [view_addToActive, view_streams_insert, next]
      | some queue =>
          simp only [Option.isNone_some, Bool.false_eq_true, if_false, Option.isSome_some, if_true]
          apply view_streams_insert_same c manager h
          rw [next, StreamView.subscribe, hq, Option.getD_some, ← hq]

theorem view_subscribeToStream_of_ne {d : ContextAddress} (h : d ≠ c)
    (key streamIdentifier : String) (enqueuePacket : Bool) :
    (manager.subscribeToStream d key streamIdentifier enqueuePacket).view c = manager.view c := by
  simp only [subscribeToStream]
  cases hs : manager.mStreamsMap[key]? with
  | none => rfl
  | some stream =>
      have same := view_streams_insert_same c manager hs
        (stream.view_subscribe_of_ne c h enqueuePacket)
      simp only
      split
      · rw [view_addToActive_of_ne c _ h, same]
      · exact same

theorem view_fillPending (streamIdentifier key : String) :
    (fillPendingSubscription streamIdentifier key manager c).view c =
      (manager.view c).fillPending streamIdentifier key := by
  have pending : (manager.view c).pending = manager.mPendingSubscriptionRequests[c]? := rfl
  unfold fillPendingSubscription ClientView.fillPending
  rw [pending]
  cases manager.mPendingSubscriptionRequests[c]? with
  | none => rfl
  | some names =>
      simp only
      split
      · rw [← view_subscribeToStream]
        simp only [view, ExtTreeMap.getElem?_insert_self]
      · rfl

theorem view_fillPending_of_ne {d : ContextAddress} (h : d ≠ c) (streamIdentifier key : String) :
    (fillPendingSubscription streamIdentifier key manager d).view c = manager.view c := by
  unfold fillPendingSubscription
  split
  · rfl
  · split
    · rw [← view_subscribeToStream_of_ne c manager h key streamIdentifier true]
      simp only [view, getElem?_insert_of_ne _ _ h]
    · rfl

theorem view_purgeFilled : manager.purgeFilledRequests.view c = (manager.view c).purgeFilled := by
  simp only [purgeFilledRequests, view, ClientView.purgeFilled, ExtTreeMap.getElem?_filter']

theorem fillPending_if_pending (streamIdentifier key : String) :
    (if c ∈ manager.mPendingSubscriptionRequests.keys
      then (manager.view c).fillPending streamIdentifier key else manager.view c) =
      (manager.view c).fillPending streamIdentifier key := by
  split
  · rfl
  · rename_i absent
    have none : (manager.view c).pending = none :=
      (not_mem_iff _ _).mp (fun member => absent (ExtTreeMap.mem_keys.mpr member))
    simp only [ClientView.fillPending, none]

/-- A packet that reaches the implementation acts on the view as on the manager. -/
theorem view_enqueuePacketImpl (packet : Packet) :
    (Reply.settle manager (manager.enqueuePacketImpl packet)).1.view c =
      (manager.view c).enqueue packet := by
  simp only [enqueuePacketImpl, ClientView.enqueue, view_streams_getElem?]
  cases h : manager.mStreamsMap[packet.toName]? with
  | some stream =>
      simp only [Option.map_some]
      cases hs : stream.setNextPacket packet with
      | error what =>
          simp only [Reply.settle, Stream.setNextPacket] at hs ⊢
          split_ifs at hs with name
          rw [if_pos (show packet.toName ≠ (stream.view c).mStreamIdentifier from name)]
      | ok next =>
          obtain ⟨seen, name⟩ := stream.view_setNextPacket c hs
          simp only [Reply.settle]
          rw [if_neg (not_not.mpr (show packet.toName = (stream.view c).mStreamIdentifier from name)),
            view_streams_insert, seen]
  | none =>
      have absent : manager.mStreamsMap.contains packet.toName = false :=
        Bool.eq_false_iff.mpr (fun contained => (not_mem_iff _ _).mpr h contained)
      have fresh : manager.mStreamsMap.insertIfNew packet.toName
          ⟨manager.mStreamOptions, ∅, packet, packet.toName, true⟩ =
          manager.mStreamsMap.insert packet.toName
            ⟨manager.mStreamOptions, ∅, packet, packet.toName, true⟩ := by
        apply ExtTreeMap.ext_getElem?
        intro a
        simp only [ExtTreeMap.getElem?_insertIfNew, getElem?_insert,
          Std.LawfulEqOrd.compare_eq_iff_eq, (not_mem_iff _ _).mpr h, not_false_eq_true, and_true]
      simp only [Option.map_none, Stream.construct_eq, ExtTreeMap.containsThenInsertIfNew_fst, absent,
        ExtTreeMap.containsThenInsertIfNew_snd, fresh, Bool.false_eq_true, if_false, Reply.settle]
      rw [view_purgeFilled]
      congr 1
      -- the second loop owns one pending request per context, the first one subscriber per context
      rw [FoldFrame.foldl_focus (fun m : SubscriptionManager => m.view c) _
        (fun v => v.fillPending packet.toName packet.toName) c _ (keys_nodup _)
        (fun m d hd => view_fillPending_of_ne c m hd _ _) (fun m => view_fillPending c m _ _),
        fillPending_if_pending,
        FoldFrame.foldl_focus (fun m : SubscriptionManager => m.view c) _
        (fun v => v.subscribeToStream packet.toName packet.toName true) c _ (toList_nodup _)
        (fun m d hd => view_subscribeToStream_of_ne c m hd _ _ _)
        (fun m => view_subscribeToStream c m _ _ _), view_streams_insert]
      simp only [ExtTreeSet.mem_toList]
      rfl

theorem view_addPending (streamIdentifier : String) :
    (manager.addPendingSubscription c streamIdentifier).view c =
      (manager.view c).addPending streamIdentifier := by
  simp only [addPendingSubscription, ClientView.addPending]
  change _ = { manager.view c with
    pending := some ((manager.mPendingSubscriptionRequests[c]?.getD ∅).insert streamIdentifier) }
  cases h : manager.mPendingSubscriptionRequests[c]? with
  | none => simp only [view, ExtTreeMap.getElem?_insert_self, Option.getD_none]
  | some names =>
      simp only [Option.getD_some]
      split
      · rename_i member
        rw [set_insert_same names member, ← h]
        rfl
      · simp only [view, ExtTreeMap.getElem?_insert_self]

theorem view_addPending_of_ne {d : ContextAddress} (h : d ≠ c) (streamIdentifier : String) :
    (manager.addPendingSubscription d streamIdentifier).view c = manager.view c := by
  simp only [addPendingSubscription]
  split
  · split
    · rfl
    · simp only [view, getElem?_insert_of_ne _ _ h]
  · simp only [view, getElem?_insert_of_ne _ _ h]

theorem view_subscribeToIdentifier (identifier : StreamIdentifier) :
    (subscribeToIdentifier c manager identifier).view c =
      (manager.view c).subscribeToName identifier.toName := by
  have known : identifier.toName ∈ (manager.view c).streams ↔
      identifier.toName ∈ manager.mStreamsMap := ExtTreeMap.mem_map
  simp only [subscribeToIdentifier, ClientView.subscribeToName, known]
  split
  · exact view_subscribeToStream c manager _ _ _
  · exact view_addPending c manager _

theorem view_subscribeToIdentifier_of_ne {d : ContextAddress} (h : d ≠ c)
    (identifier : StreamIdentifier) :
    (subscribeToIdentifier d manager identifier).view c = manager.view c := by
  simp only [subscribeToIdentifier]
  split
  · exact view_subscribeToStream_of_ne c manager h _ _ _
  · exact view_addPending_of_ne c manager h _

theorem view_subscribeImpl (identifiers : List StreamIdentifier) :
    (manager.subscribeImpl c identifiers).view c =
      (identifiers.map StreamIdentifier.toName).foldl ClientView.subscribeToName
        (manager.view c) := by
  unfold subscribeImpl
  split
  · rename_i empty; rw [empty]; rfl
  · change (identifiers.foldl (subscribeToIdentifier c) manager).view c = _
    rw [List.foldl_map]
    rename_i some
    clear some
    induction identifiers generalizing manager with
    | nil => rfl
    | cons identifier identifiers ih =>
        rw [List.foldl_cons, List.foldl_cons, ← view_subscribeToIdentifier]
        exact ih (subscribeToIdentifier c manager identifier)

theorem view_subscribeImpl_of_ne {d : ContextAddress} (h : d ≠ c)
    (identifiers : List StreamIdentifier) :
    (manager.subscribeImpl d identifiers).view c = manager.view c := by
  unfold subscribeImpl
  split
  · rfl
  · exact FoldFrame.foldl_frame (fun m : SubscriptionManager => m.view c) _ identifiers
      (fun m identifier _ => view_subscribeToIdentifier_of_ne c m h identifier) manager

theorem view_subscribeToKey (key : String) :
    (subscribeToKey c manager key).view c = (manager.view c).subscribeToKey key := by
  simp only [subscribeToKey, ClientView.subscribeToKey, view_streams_getElem?]
  cases manager.mStreamsMap[key]? with
  | none => rfl
  | some stream => exact view_subscribeToStream c manager _ _ _

theorem view_subscribeToKey_of_ne {d : ContextAddress} (h : d ≠ c) (key : String) :
    (subscribeToKey d manager key).view c = manager.view c := by
  unfold subscribeToKey
  split
  · rfl
  · exact view_subscribeToStream_of_ne c manager h _ _ _

/-- The keys are those of the manager, so both sides fold over one list. -/
theorem view_streams_keys : (manager.view c).streams.keys = manager.mStreamsMap.keys :=
  ExtTreeMap.keys_map

theorem view_subscribeToAll :
    (manager.subscribeToAll c).view c = (manager.view c).subscribeToAll := by
  unfold subscribeToAll ClientView.subscribeToAll
  change _ = if manager.mPendingSubscribeToAllRequests.contains c then _ else _
  by_cases waiting : c ∈ manager.mPendingSubscribeToAllRequests
  · rw [if_pos waiting, if_pos (show manager.mPendingSubscribeToAllRequests.contains c from waiting)]
  · rw [if_neg waiting, if_neg (show ¬manager.mPendingSubscribeToAllRequests.contains c from waiting)]
    have walk : manager.mStreamsMap.keys.foldl ClientView.subscribeToKey (manager.view c) =
        (manager.mStreamsMap.keys.foldl (subscribeToKey c) manager).view c :=
      List.foldl_hom (fun m : SubscriptionManager => m.view c)
        (fun m key => (view_subscribeToKey c m key).symm)
    rw [view_streams_keys, walk]
    simp only [view, ExtTreeSet.contains_insert_self]

theorem view_subscribeToAll_of_ne {d : ContextAddress} (h : d ≠ c) :
    (manager.subscribeToAll d).view c = manager.view c := by
  unfold subscribeToAll
  split
  · rfl
  · rw [← FoldFrame.foldl_frame (fun m : SubscriptionManager => m.view c) (subscribeToKey d)
      manager.mStreamsMap.keys (fun m key _ => view_subscribeToKey_of_ne c m h key) manager]
    simp only [view, ExtTreeSet.contains_insert, beq_compare_of_ne h, Bool.false_or]

/-- The stream names `getPackets` visits, whoever calls it. -/
def walk (manager : SubscriptionManager) : List String :=
  manager.mActiveSubscriptionsMap.toList.flatMap (fun entry => entry.2.toList)

theorem getPackets_eq_walk :
    manager.getPackets c = manager.walk.foldl (nextPacketFrom c) ([], manager) := by
  rw [walk, List.foldl_flatMap]
  rfl

theorem nextPacketFrom_self (packets : List Packet) (name : String) :
    (nextPacketFrom c (packets, manager) name).1 =
        packets ++ ((manager.view c).pull name).1.toList ∧
      (nextPacketFrom c (packets, manager) name).2.view c = ((manager.view c).pull name).2 := by
  simp only [nextPacketFrom, ClientView.pull, view_streams_getElem?]
  cases manager.mStreamsMap[name]? with
  | none => exact ⟨(List.append_nil packets).symm, rfl⟩
  | some stream =>
      simp only [Option.map_some, stream.getNextPacket_fst, view_streams_insert,
        stream.view_getNextPacket, and_self]

theorem nextPacketFrom_fold (names : List String) (packets : List Packet) :
    (names.foldl (nextPacketFrom c) (packets, manager)).1 =
        packets ++ ((manager.view c).pullAll names).1 ∧
      (names.foldl (nextPacketFrom c) (packets, manager)).2.view c =
        ((manager.view c).pullAll names).2 := by
  induction names generalizing packets manager with
  | nil => exact ⟨(List.append_nil packets).symm, rfl⟩
  | cons name names ih =>
      obtain ⟨taken, seen⟩ := nextPacketFrom_self c manager packets name
      obtain ⟨rest, last⟩ := ih (nextPacketFrom c (packets, manager) name).2
        (nextPacketFrom c (packets, manager) name).1
      rw [List.foldl_cons]
      constructor
      · rw [rest, taken, seen, List.append_assoc]
        rfl
      · rw [last, seen]
        rfl

/-- A context pulls one packet for every visit of the walk to a stream it subscribes to. -/
theorem getPackets_fst :
    (manager.getPackets c).1 = ((manager.view c).pullAll manager.walk).1 := by
  rw [getPackets_eq_walk, (nextPacketFrom_fold c manager _ _).1, List.nil_append]

theorem view_getPackets :
    (manager.getPackets c).2.view c = ((manager.view c).pullAll manager.walk).2 := by
  rw [getPackets_eq_walk, (nextPacketFrom_fold c manager _ _).2]

theorem view_getPackets_of_ne {d : ContextAddress} (h : d ≠ c) :
    (manager.getPackets d).2.view c = manager.view c := by
  rw [getPackets_eq_walk]
  refine FoldFrame.foldl_frame (fun r : List Packet × SubscriptionManager => r.2.view c)
    (nextPacketFrom d) manager.walk ?_ ([], manager)
  intro result name _
  simp only [nextPacketFrom]
  cases hs : result.2.mStreamsMap[name]? with
  | none => rfl
  | some stream =>
      exact view_streams_insert_same c result.2 hs (stream.view_getNextPacket_of_ne c h)

theorem unsubscribeFromStream_frame (state : SubscriptionManager × Bool) (key : String) :
    (unsubscribeFromStream c state key).1.mPendingSubscriptionRequests =
        state.1.mPendingSubscriptionRequests ∧
      (unsubscribeFromStream c state key).1.mPendingSubscribeToAllRequests =
        state.1.mPendingSubscribeToAllRequests ∧
      (unsubscribeFromStream c state key).1.mStreamOptions = state.1.mStreamOptions := by
  unfold unsubscribeFromStream
  split
  · exact ⟨rfl, rfl, rfl⟩
  · simp only
    split
    · split <;> exact ⟨rfl, rfl, rfl⟩
    · split <;> exact ⟨rfl, rfl, rfl⟩
    · exact ⟨rfl, rfl, rfl⟩
    · exact ⟨rfl, rfl, rfl⟩

theorem unsubscribeFromStream_streams (state : SubscriptionManager × Bool) (key : String) :
    (unsubscribeFromStream c state key).1.mStreamsMap =
      match state.1.mStreamsMap[key]? with
      | none => state.1.mStreamsMap
      | some stream => state.1.mStreamsMap.insert key (stream.unsubscribe c).2 := by
  unfold unsubscribeFromStream
  cases state.1.mStreamsMap[key]? with
  | none => rfl
  | some stream =>
      simp only
      split
      · split <;> rfl
      · split <;> rfl
      · rfl
      · rfl

/-- A visited stream leaves the context without active names, provided the flag
is only up when they are gone already. -/
theorem unsubscribeFromStream_active (state : SubscriptionManager × Bool) {key : String}
    (present : key ∈ state.1.mStreamsMap)
    (flag : state.2 = true → state.1.mActiveSubscriptionsMap[c]? = none) :
    (unsubscribeFromStream c state key).1.mActiveSubscriptionsMap[c]? = none := by
  obtain ⟨stream, hs⟩ := (mem_iff_exists _ _).mp present
  simp only [unsubscribeFromStream, hs, stream.unsubscribe_fst]
  cases (stream.view c).queue.isSome with
  | true =>
      simp only [if_true]
      split
      · rename_i up; exact flag up
      · exact ExtTreeMap.getElem?_erase_self
  | false =>
      simp only [Bool.false_eq_true, if_false]
      split
      · exact ExtTreeMap.getElem?_erase_self
      · rename_i absent; exact (not_mem_iff _ _).mp absent

theorem unsubscribeFromStream_active_of_ne (state : SubscriptionManager × Bool) (key : String)
    {d : ContextAddress} (h : d ≠ c) :
    (unsubscribeFromStream d state key).1.mActiveSubscriptionsMap[c]? =
      state.1.mActiveSubscriptionsMap[c]? := by
  unfold unsubscribeFromStream
  split
  · rfl
  · simp only
    split
    · split
      · rfl
      · simp only [getElem?_erase, if_neg h]
    · split
      · simp only [getElem?_erase, if_neg h]
      · rfl
    · rfl
    · rfl

theorem unsubscribeFromStream_gone (state : SubscriptionManager × Bool) (key : String)
    (gone : state.1.mActiveSubscriptionsMap[c]? = none) :
    (unsubscribeFromStream c state key).1.mActiveSubscriptionsMap[c]? = none := by
  by_cases present : key ∈ state.1.mStreamsMap
  · exact unsubscribeFromStream_active c state present (fun _ => gone)
  · simp only [unsubscribeFromStream, (not_mem_iff _ _).mp present]
    exact gone

theorem unsubscribeFromStream_fold_streams :
    (manager.mStreamsMap.keys.foldl (unsubscribeFromStream c) (manager, false)).1.mStreamsMap =
      manager.mStreamsMap.map (fun _ stream => (stream.unsubscribe c).2) := by
  apply ExtTreeMap.ext_getElem?
  intro key
  rw [ExtTreeMap.getElem?_map, FoldFrame.foldl_focus
    (fun state : SubscriptionManager × Bool => state.1.mStreamsMap[key]?) _
    (Option.map (fun stream : Stream => (stream.unsubscribe c).2)) key _ (keys_nodup _)]
  · split
    · rfl
    · rename_i absent
      rw [(not_mem_iff _ _).mp (fun member => absent (ExtTreeMap.mem_keys.mpr member)),
        Option.map_none]
  · intro state other hne
    rw [unsubscribeFromStream_streams]
    split
    · rfl
    · exact getElem?_insert_of_ne _ _ hne
  · intro state
    rw [unsubscribeFromStream_streams]
    cases hs : state.1.mStreamsMap[key]? with
    | none => exact hs
    | some stream => exact ExtTreeMap.getElem?_insert_self

theorem unsubscribeFromStream_fold_active :
    (manager.mStreamsMap.keys.foldl (unsubscribeFromStream c)
      (manager, false)).1.mActiveSubscriptionsMap[c]? =
      if manager.mStreamsMap.isEmpty then manager.mActiveSubscriptionsMap[c]? else none := by
  rw [← ExtTreeMap.isEmpty_keys]
  cases hk : manager.mStreamsMap.keys with
  | nil => rfl
  | cons key keys =>
      have present : key ∈ manager.mStreamsMap := by
        rw [← ExtTreeMap.mem_keys, hk]; exact List.mem_cons_self
      have first := unsubscribeFromStream_active c (manager, false) present
        (fun up => by cases up)
      rw [List.foldl_cons, List.isEmpty_cons, if_neg Bool.false_ne_true]
      -- once the context is gone from the active map, no later stream brings it back
      exact List.foldlRecOn keys (unsubscribeFromStream c)
        (motive := fun state => state.1.mActiveSubscriptionsMap[c]? = none) first
        (fun state gone key _ => unsubscribeFromStream_gone c state key gone)

theorem unsubscribeFromStream_fold_frame (keys : List String) :
    (keys.foldl (unsubscribeFromStream c) (manager, false)).1.mPendingSubscriptionRequests =
        manager.mPendingSubscriptionRequests ∧
      (keys.foldl (unsubscribeFromStream c) (manager, false)).1.mPendingSubscribeToAllRequests =
        manager.mPendingSubscribeToAllRequests ∧
      (keys.foldl (unsubscribeFromStream c) (manager, false)).1.mStreamOptions =
        manager.mStreamOptions := by
  apply List.foldlRecOn keys (unsubscribeFromStream c)
    (motive := fun state : SubscriptionManager × Bool =>
      state.1.mPendingSubscriptionRequests = manager.mPendingSubscriptionRequests ∧
        state.1.mPendingSubscribeToAllRequests = manager.mPendingSubscribeToAllRequests ∧
        state.1.mStreamOptions = manager.mStreamOptions)
  · exact ⟨rfl, rfl, rfl⟩
  intro state kept key _
  obtain ⟨pending, pendingAll, options⟩ := unsubscribeFromStream_frame c state key
  exact ⟨pending.trans kept.1, pendingAll.trans kept.2.1, options.trans kept.2.2⟩

theorem view_unsubscribeFromAll :
    (manager.unsubscribeFromAll c).view c = (manager.view c).unsubscribeFromAll := by
  have empty : (manager.view c).streams.isEmpty = manager.mStreamsMap.isEmpty := by
    rw [← ExtTreeMap.isEmpty_keys, view_streams_keys, ExtTreeMap.isEmpty_keys]
  simp only [unsubscribeFromAll, ClientView.unsubscribeFromAll, view,
    unsubscribeFromStream_fold_frame, unsubscribeFromStream_fold_streams,
    unsubscribeFromStream_fold_active, ExtTreeMap.getElem?_erase_self]
  ext1
  · rfl
  · simp only [ExtTreeMap.map_map, Stream.view_unsubscribe]
  · exact congrArg (fun e : Bool => if e then manager.mActiveSubscriptionsMap[c]? else none)
      empty.symm
  · rfl
  · simp

theorem view_unsubscribeFromAll_of_ne {d : ContextAddress} (h : d ≠ c) :
    (manager.unsubscribeFromAll d).view c = manager.view c := by
  have active := FoldFrame.foldl_frame
    (fun state : SubscriptionManager × Bool => state.1.mActiveSubscriptionsMap[c]?)
    (unsubscribeFromStream d) manager.mStreamsMap.keys
    (fun state key _ => unsubscribeFromStream_active_of_ne c state key h)
  simp only [unsubscribeFromAll, view, unsubscribeFromStream_fold_frame,
    unsubscribeFromStream_fold_streams, active, getElem?_erase, if_neg h]
  ext1
  · rfl
  · simp only [ExtTreeMap.map_map, Stream.view_unsubscribe_of_ne c _ h]
  · rfl
  · rfl
  · simp [ExtTreeSet.contains_erase, h]

@[simp] theorem view_getNumberOfSubscribers :
    manager.getNumberOfSubscribers.2.view c = manager.view c := by
  unfold getNumberOfSubscribers
  split <;> rfl

theorem view_unsubscribeAll :
    manager.unsubscribeAll.view c = (manager.view c).unsubscribeAll := by
  simp only [unsubscribeAll, view_getNumberOfSubscribers]
  simp only [view, ClientView.unsubscribeAll, ExtTreeMap.map_map, Stream.view_unsubscribeAll,
    ExtTreeMap.getElem?_empty, ExtTreeSet.contains_empty]

end SubscriptionManager
end UDataPacketService
