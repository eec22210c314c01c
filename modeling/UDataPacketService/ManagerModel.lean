import UDataPacketService.StreamModel

/-! The subscription manager with each public call taken as one atomic step.
Where a loop of the source runs over a container, the fold runs over the keys
the container holds when the loop starts. -/
namespace UDataPacketService
open Std (ExtTreeMap ExtTreeSet)

/-- The fields of `SubscriptionManagerImpl`. -/
structure SubscriptionManager where
  mStreamOptions : StreamOptions
  mStreamsMap : ExtTreeMap String Stream := ∅
  mActiveSubscriptionsMap : ExtTreeMap ContextAddress (ExtTreeSet String) := ∅
  mPendingSubscriptionRequests : ExtTreeMap ContextAddress (ExtTreeSet String) := ∅
  mPendingSubscribeToAllRequests : ExtTreeSet ContextAddress := ∅
  mNumberOfSubscribers : Int := -1

namespace SubscriptionManager

def addToActiveSubscriptionsMap (manager : SubscriptionManager) (contextAddress : ContextAddress)
    (streamIdentifier : String) : SubscriptionManager :=
  { manager with
    mActiveSubscriptionsMap := manager.mActiveSubscriptionsMap.insert contextAddress
      (match manager.mActiveSubscriptionsMap[contextAddress]? with
        | some names => names.insert streamIdentifier
        | none => (∅ : ExtTreeSet String).insert streamIdentifier) }

/-- The body the subscribing loops share: subscribe at the stream the iterator
holds and record the context as active if the stream added it. -/
def subscribeToStream (manager : SubscriptionManager) (contextAddress : ContextAddress)
    (key streamIdentifier : String) (enqueuePacket : Bool) : SubscriptionManager :=
  match manager.mStreamsMap[key]? with
  | none => manager
  | some stream =>
      let subscribed := stream.subscribe contextAddress enqueuePacket
      let manager := { manager with mStreamsMap := manager.mStreamsMap.insert key subscribed.2 }
      if subscribed.1 then manager.addToActiveSubscriptionsMap contextAddress streamIdentifier
      else manager

/-- The second loop of `enqueuePacket` at one context: fill a request that names
the new stream. -/
def fillPendingSubscription (streamIdentifier key : String) (manager : SubscriptionManager)
    (contextAddress : ContextAddress) : SubscriptionManager :=
  match manager.mPendingSubscriptionRequests[contextAddress]? with
  | none => manager
  | some names =>
      if streamIdentifier ∈ names then
        let manager := manager.subscribeToStream contextAddress key streamIdentifier true
        { manager with
          mPendingSubscriptionRequests := manager.mPendingSubscriptionRequests.insert
            contextAddress (names.erase streamIdentifier) }
      else manager

/-- The third loop of `enqueuePacket`: drop the requests with nothing left to fill. -/
def purgeFilledRequests (manager : SubscriptionManager) : SubscriptionManager :=
  { manager with
    mPendingSubscriptionRequests :=
      manager.mPendingSubscriptionRequests.filter (fun _ names => !names.isEmpty) }

def enqueuePacketImpl (manager : SubscriptionManager) (packet : Packet) :
    Except String SubscriptionManager :=
  let streamIdentifier := packet.toName
  match manager.mStreamsMap[streamIdentifier]? with
  | some stream =>
      match stream.setNextPacket packet with
      | .ok stream =>
          .ok { manager with mStreamsMap := manager.mStreamsMap.insert streamIdentifier stream }
      | .error what =>
          .error ("Subscription manager failed to enqueue " ++ streamIdentifier ++ " because " ++ what)
  | none =>
      match Stream.construct packet manager.mStreamOptions with
      | .error what => .error ("Failed to create stream because " ++ what)
      | .ok stream =>
          let inserted := manager.mStreamsMap.containsThenInsertIfNew streamIdentifier stream
          if inserted.1 then
            .error ("Failed to insert " ++ streamIdentifier ++ " into streams map")
          else
            let key := streamIdentifier
            let streamIdentifier := stream.mStreamIdentifier
            let manager := { manager with mStreamsMap := inserted.2 }
            let manager := manager.mPendingSubscribeToAllRequests.toList.foldl
              (fun manager contextAddress =>
                manager.subscribeToStream contextAddress key streamIdentifier true) manager
            let manager := manager.mPendingSubscriptionRequests.keys.foldl
              (fillPendingSubscription streamIdentifier key) manager
            .ok manager.purgeFilledRequests

/-- The branch of `subscribe` for a stream that does not exist yet. -/
def addPendingSubscription (manager : SubscriptionManager) (contextAddress : ContextAddress)
    (streamIdentifier : String) : SubscriptionManager :=
  match manager.mPendingSubscriptionRequests[contextAddress]? with
  | some names =>
      if streamIdentifier ∈ names then manager
      else
        { manager with
          mPendingSubscriptionRequests := manager.mPendingSubscriptionRequests.insert
            contextAddress (names.insert streamIdentifier) }
  | none =>
      { manager with
        mPendingSubscriptionRequests := manager.mPendingSubscriptionRequests.insert
          contextAddress ((∅ : ExtTreeSet String).insert streamIdentifier) }

/-- The loop body of `SubscriptionManagerImpl::subscribe`. -/
def subscribeToIdentifier (contextAddress : ContextAddress) (manager : SubscriptionManager)
    (identifier : StreamIdentifier) : SubscriptionManager :=
  let streamIdentifier := identifier.toName
  if streamIdentifier ∈ manager.mStreamsMap then
    manager.subscribeToStream contextAddress streamIdentifier streamIdentifier false
  else manager.addPendingSubscription contextAddress streamIdentifier

def subscribeImpl (manager : SubscriptionManager) (contextAddress : ContextAddress)
    (streamIdentifiers : List StreamIdentifier) : SubscriptionManager :=
  if streamIdentifiers = [] then manager
  else
    { streamIdentifiers.foldl (subscribeToIdentifier contextAddress) manager with
      mNumberOfSubscribers := -1 }

/-- The loop body of `subscribeToAll`. -/
def subscribeToKey (contextAddress : ContextAddress) (manager : SubscriptionManager)
    (key : String) : SubscriptionManager :=
  match manager.mStreamsMap[key]? with
  | none => manager
  | some stream => manager.subscribeToStream contextAddress key stream.mStreamIdentifier false

def subscribeToAll (manager : SubscriptionManager) (contextAddress : ContextAddress) :
    SubscriptionManager :=
  if contextAddress ∈ manager.mPendingSubscribeToAllRequests then manager
  else
    let manager := manager.mStreamsMap.keys.foldl (subscribeToKey contextAddress) manager
    { manager with
      mPendingSubscribeToAllRequests :=
        manager.mPendingSubscribeToAllRequests.insert contextAddress
      mNumberOfSubscribers := -1 }

/-- The body of the two loops of `getPackets`. A name without a stream is where
the source reads through the end iterator for its log message. -/
def nextPacketFrom (contextAddress : ContextAddress)
    (result : List Packet × SubscriptionManager) (streamIdentifier : String) :
    List Packet × SubscriptionManager :=
  match result.2.mStreamsMap[streamIdentifier]? with
  | none => result
  | some stream =>
      let next := stream.getNextPacket contextAddress
      (result.1 ++ next.1.toList,
        { result.2 with mStreamsMap := result.2.mStreamsMap.insert streamIdentifier next.2 })

/-- The outer loop runs over the active subscriptions of every context. -/
def getPackets (manager : SubscriptionManager) (contextAddress : ContextAddress) :
    List Packet × SubscriptionManager :=
  manager.mActiveSubscriptionsMap.toList.foldl
    (fun result activeSubscription =>
      activeSubscription.2.toList.foldl (nextPacketFrom contextAddress) result) ([], manager)

/-- The loop body of `unsubscribeFromAll`; the flag is `purgedFromActiveSubscriptions`. -/
def unsubscribeFromStream (contextAddress : ContextAddress) (state : SubscriptionManager × Bool)
    (key : String) : SubscriptionManager × Bool :=
  match state.1.mStreamsMap[key]? with
  | none => state
  | some stream =>
      let response := stream.unsubscribe contextAddress
      let manager := { state.1 with mStreamsMap := state.1.mStreamsMap.insert key response.2 }
      let purged := { manager with
        mActiveSubscriptionsMap := manager.mActiveSubscriptionsMap.erase contextAddress }
      match response.1 with
      | .ok .unsubscribed => if state.2 then (manager, state.2) else (purged, true)
      | .ok .neverSubscribed =>
          if contextAddress ∈ manager.mActiveSubscriptionsMap then (purged, true)
          else (manager, state.2)
      | .ok .notUnsubscribed => (manager, state.2)
      | .error _ => (manager, state.2)

def unsubscribeFromAll (manager : SubscriptionManager) (contextAddress : ContextAddress) :
    SubscriptionManager :=
  let manager := { manager with
    mPendingSubscriptionRequests := manager.mPendingSubscriptionRequests.erase contextAddress
    mPendingSubscribeToAllRequests :=
      manager.mPendingSubscribeToAllRequests.erase contextAddress }
  { (manager.mStreamsMap.keys.foldl (unsubscribeFromStream contextAddress) (manager, false)).1 with
    mNumberOfSubscribers := -1 }

/-- The local set `allSubscribers` of `getNumberOfSubscribers`. -/
def allSubscribers (manager : SubscriptionManager) : ExtTreeSet ContextAddress :=
  let active := manager.mActiveSubscriptionsMap.keys.foldl (fun all c => all.insert c) ∅
  let pending := manager.mPendingSubscriptionRequests.keys.foldl (fun all c => all.insert c) active
  manager.mPendingSubscribeToAllRequests.toList.foldl (fun all c => all.insert c) pending

def getNumberOfSubscribers (manager : SubscriptionManager) : Int × SubscriptionManager :=
  if 0 ≤ manager.mNumberOfSubscribers then (manager.mNumberOfSubscribers, manager)
  else
    let count : Int := manager.allSubscribers.size
    (count, { manager with mNumberOfSubscribers := count })

/-- The active map is not among the containers the source clears here. -/
def unsubscribeAll (manager : SubscriptionManager) : SubscriptionManager :=
  let manager := { manager with
    mNumberOfSubscribers := -1
    mPendingSubscriptionRequests := ∅
    mPendingSubscribeToAllRequests := ∅
    mStreamsMap := manager.mStreamsMap.map (fun _ (stream : Stream) => stream.unsubscribeAll) }
  manager.getNumberOfSubscribers.2

/-- The public `enqueuePacket`: the checks, then the implementation. -/
def enqueuePacket (manager : SubscriptionManager) (packet : Packet) :
    Except String SubscriptionManager :=
  if packet.streamIdentifierField = none then .error "Stream identifier not set"
  else if packet.numberOfSamplesField = none then .error "Number of samples not set"
  else if packet.dataType = .unknown then .error "Undefined data type"
  else if packet.samplingRate ≤ 0 then .error "Sampling rate not positive"
  else if packet.dataField = none then .error "Data not set"
  else manager.enqueuePacketImpl packet

/-- The loop that keeps the first identifier of each name. -/
def distinctIdentifiers (streamIdentifiers : List StreamIdentifier) : List StreamIdentifier :=
  (streamIdentifiers.foldl (fun (kept : List StreamIdentifier × ExtTreeSet String) identifier =>
    if identifier.toName ∈ kept.2 then kept
    else (kept.1 ++ [identifier], kept.2.insert identifier.toName)) ([], ∅)).1

def subscribe (manager : SubscriptionManager) (contextAddress : ContextAddress)
    (streamIdentifiersIn : List StreamIdentifier) : Except String SubscriptionManager :=
  if streamIdentifiersIn = [] then .error "No streams selected"
  else
    let streamIdentifiers := distinctIdentifiers streamIdentifiersIn
    if streamIdentifiers = [] then .error "Failed to create stream identifier list"
    else .ok (manager.subscribeImpl contextAddress streamIdentifiers)

end SubscriptionManager

inductive Operation where
  | enqueuePacket (packet : Packet)
  | subscribe (contextAddress : ContextAddress) (streamIdentifiers : List StreamIdentifier)
  | subscribeToAll (contextAddress : ContextAddress)
  | getPackets (contextAddress : ContextAddress)
  | unsubscribeFromAll (contextAddress : ContextAddress)
  | unsubscribeAll
  | getNumberOfSubscribers

def Operation.client : Operation → Option ContextAddress
  | .subscribe d _ | .subscribeToAll d | .getPackets d | .unsubscribeFromAll d => some d
  | .enqueuePacket _ | .unsubscribeAll | .getNumberOfSubscribers => none

inductive Reply where
  | done
  | thrown (what : String)
  | packets (result : List Packet)
  | count (number : Int)
  deriving DecidableEq, Repr

/-- A call that throws leaves the state it found. -/
def Reply.settle (manager : SubscriptionManager) :
    Except String SubscriptionManager → SubscriptionManager × Reply
  | .ok next => (next, .done)
  | .error what => (manager, .thrown what)

def managerMachine : Machine SubscriptionManager Operation Reply where
  step manager
    | .enqueuePacket packet => Reply.settle manager (manager.enqueuePacket packet)
    | .subscribe c identifiers => Reply.settle manager (manager.subscribe c identifiers)
    | .subscribeToAll c => (manager.subscribeToAll c, .done)
    | .getPackets c => ((manager.getPackets c).2, .packets (manager.getPackets c).1)
    | .unsubscribeFromAll c => (manager.unsubscribeFromAll c, .done)
    | .unsubscribeAll => (manager.unsubscribeAll, .done)
    | .getNumberOfSubscribers =>
        (manager.getNumberOfSubscribers.2, .count manager.getNumberOfSubscribers.1)

def SubscriptionManager.fresh (options : StreamOptions) : SubscriptionManager :=
  { mStreamOptions := options }

end UDataPacketService
