import UDataPacketService.ManagerInvariant

/-! The subscription manager under interleaved calls: one producer thread runs
`enqueuePacket` and each client thread runs the calls of its context. A step is one
call on a concurrent container, one visited element of an iteration, one call on a
stream or one block under the mutex. An iterator stands at the key it visited last. -/
namespace UDataPacketService
open Std (ExtTreeMap ExtTreeSet)
open OrderedContainers

/-- The two collections of requests that `enqueuePacket` goes through, in its order. -/
inductive Requests where
  | all
  | named
  deriving DecidableEq, Repr

/-- Where the producer is in `enqueuePacket`. The new stream is stored under its identifier. -/
inductive ProducerPc where
  | idle
  | find (packet : Packet)
  | setNextPacket (packet : Packet)
  | insert (packet : Packet)
  | visit (requests : Requests) (streamIdentifier : String) (cursor : Option ContextAddress)
  | subscribe (requests : Requests) (streamIdentifier : String) (contextAddress : ContextAddress)
  | contains (requests : Requests) (streamIdentifier : String) (contextAddress : ContextAddress)
  | store (requests : Requests) (streamIdentifier : String) (contextAddress : ContextAddress)
      (there : Bool)
  | fill (streamIdentifier : String) (contextAddress : ContextAddress)
  | visitFilled (cursor : Option ContextAddress)
  | purge (contextAddress : ContextAddress)
  deriving DecidableEq

inductive ClientCall where
  | subscribe (streamIdentifiers : List StreamIdentifier)
  | subscribeToAll
  | unsubscribeFromAll
  deriving DecidableEq, Repr

/-- The loop that subscribes a client: over the names a request has left, or over the streams. -/
inductive ClientLoop where
  | names (streamIdentifiers : List StreamIdentifier) (rest : List String)
  | streams (cursor : Option String)
  deriving DecidableEq

inductive ClientPc where
  | idle
  | next (loop : ClientLoop)
  | subscribe (loop : ClientLoop) (key streamIdentifier : String)
  | contains (loop : ClientLoop) (streamIdentifier : String)
  | store (loop : ClientLoop) (streamIdentifier : String) (there : Bool)
  | findPending (streamIdentifiers : List StreamIdentifier) (rest : List String)
      (streamIdentifier : String)
  | containsPending (streamIdentifiers : List StreamIdentifier) (rest : List String)
      (streamIdentifier : String)
  | insertPending (streamIdentifiers : List StreamIdentifier) (rest : List String)
      (streamIdentifier : String)
  | newPending (streamIdentifiers : List StreamIdentifier) (rest : List String)
      (streamIdentifier : String)
  | containsAll
  | insertAll
  | reset (call : ClientCall)
  | removePending
  | nextStream (cursor : Option String) (purgedFromActiveSubscriptions : Bool)
  | unsubscribe (key : String) (purgedFromActiveSubscriptions : Bool)
  | containsActive (key : String) (purgedFromActiveSubscriptions : Bool)
  | eraseActive (key : String)
  deriving DecidableEq

namespace SubscriptionManager

/-- `Stream::subscribe` at the stream an iterator stands at. -/
def subscribeAt (manager : SubscriptionManager) (key : String) (contextAddress : ContextAddress)
    (enqueuePacket : Bool) : Bool × SubscriptionManager :=
  match manager.mStreamsMap[key]? with
  | none => (false, manager)
  | some stream =>
      let subscribed := stream.subscribe contextAddress enqueuePacket
      (subscribed.1, { manager with mStreamsMap := manager.mStreamsMap.insert key subscribed.2 })

/-- `Stream::unsubscribe` at the stream an iterator stands at. -/
def unsubscribeAt (manager : SubscriptionManager) (key : String) (contextAddress : ContextAddress) :
    Except String UnsubscribeResponse × SubscriptionManager :=
  match manager.mStreamsMap[key]? with
  | none => (.ok .neverSubscribed, manager)
  | some stream =>
      let response := stream.unsubscribe contextAddress
      (response.1, { manager with mStreamsMap := manager.mStreamsMap.insert key response.2 })

/-- The second half of `addToActiveSubscriptionsMap`: add to the entry that was there
when the first half looked, or assign a new set. -/
def storeActive (manager : SubscriptionManager) (contextAddress : ContextAddress)
    (streamIdentifier : String) (there : Bool) : SubscriptionManager :=
  let names : ExtTreeSet String :=
    if there then manager.mActiveSubscriptionsMap[contextAddress]?.getD ∅ else ∅
  { manager with
    mActiveSubscriptionsMap := manager.mActiveSubscriptionsMap.insert contextAddress
      (names.insert streamIdentifier) }

/-- `second.erase` at the request an iterator stands at. -/
def erasePendingName (manager : SubscriptionManager) (contextAddress : ContextAddress)
    (streamIdentifier : String) : SubscriptionManager :=
  match manager.mPendingSubscriptionRequests[contextAddress]? with
  | none => manager
  | some names =>
      { manager with
        mPendingSubscriptionRequests := manager.mPendingSubscriptionRequests.insert
          contextAddress (names.erase streamIdentifier) }

/-- `second.insert` at the request an iterator stands at. -/
def insertPendingName (manager : SubscriptionManager) (contextAddress : ContextAddress)
    (streamIdentifier : String) : SubscriptionManager :=
  match manager.mPendingSubscriptionRequests[contextAddress]? with
  | none => manager
  | some names =>
      { manager with
        mPendingSubscriptionRequests := manager.mPendingSubscriptionRequests.insert
          contextAddress (names.insert streamIdentifier) }

/-- `insert` of a request with one name, which keeps a request that is there. -/
def newPendingRequest (manager : SubscriptionManager) (contextAddress : ContextAddress)
    (streamIdentifier : String) : SubscriptionManager :=
  { manager with
    mPendingSubscriptionRequests := manager.mPendingSubscriptionRequests.insertIfNew
      contextAddress ((∅ : ExtTreeSet String).insert streamIdentifier) }

def erasePendingRequest (manager : SubscriptionManager) (contextAddress : ContextAddress) :
    SubscriptionManager :=
  { manager with
    mPendingSubscriptionRequests := manager.mPendingSubscriptionRequests.erase contextAddress }

def eraseActive (manager : SubscriptionManager) (contextAddress : ContextAddress) :
    SubscriptionManager :=
  { manager with mActiveSubscriptionsMap := manager.mActiveSubscriptionsMap.erase contextAddress }

def pendingNames (manager : SubscriptionManager) (contextAddress : ContextAddress) :
    ExtTreeSet String :=
  manager.mPendingSubscriptionRequests[contextAddress]?.getD ∅

end SubscriptionManager

namespace ProducerPc

def afterRequest (streamIdentifier : String) (contextAddress : ContextAddress) :
    Requests → ProducerPc
  | .all => .visit .all streamIdentifier (some contextAddress)
  | .named => .fill streamIdentifier contextAddress

/-- One step of `SubscriptionManagerImpl::enqueuePacket`. A call that throws is over. -/
def step (manager : SubscriptionManager) : ProducerPc → SubscriptionManager × ProducerPc
  | .idle => (manager, .idle)
  | .find packet =>
      (manager, if packet.toName ∈ manager.mStreamsMap then .setNextPacket packet else .insert packet)
  | .setNextPacket packet =>
      match manager.mStreamsMap[packet.toName]? with
      | none => (manager, .idle)
      | some stream =>
          match stream.setNextPacket packet with
          | .error _ => (manager, .idle)
          | .ok next =>
              ({ manager with mStreamsMap := manager.mStreamsMap.insert packet.toName next }, .idle)
  | .insert packet =>
      match Stream.construct packet manager.mStreamOptions with
      | .error _ => (manager, .idle)
      | .ok stream =>
          let inserted := manager.mStreamsMap.containsThenInsertIfNew packet.toName stream
          if inserted.1 then (manager, .idle)
          else ({ manager with mStreamsMap := inserted.2 }, .visit .all stream.mStreamIdentifier none)
  | .visit .all streamIdentifier cursor =>
      match advance manager.mPendingSubscribeToAllRequests.toList cursor with
      | none => (manager, .visit .named streamIdentifier none)
      | some contextAddress => (manager, .subscribe .all streamIdentifier contextAddress)
  | .visit .named streamIdentifier cursor =>
      match advance manager.mPendingSubscriptionRequests.keys cursor with
      | none => (manager, .visitFilled none)
      | some contextAddress =>
          (manager, if streamIdentifier ∈ manager.pendingNames contextAddress
            then .subscribe .named streamIdentifier contextAddress
            else .visit .named streamIdentifier (some contextAddress))
  | .subscribe requests streamIdentifier contextAddress =>
      let subscribed := manager.subscribeAt streamIdentifier contextAddress true
      (subscribed.2, if subscribed.1 then .contains requests streamIdentifier contextAddress
        else afterRequest streamIdentifier contextAddress requests)
  | .contains requests streamIdentifier contextAddress =>
      (manager, .store requests streamIdentifier contextAddress
        (manager.mActiveSubscriptionsMap.contains contextAddress))
  | .store requests streamIdentifier contextAddress there =>
      (manager.storeActive contextAddress streamIdentifier there,
        afterRequest streamIdentifier contextAddress requests)
  | .fill streamIdentifier contextAddress =>
      (manager.erasePendingName contextAddress streamIdentifier,
        .visit .named streamIdentifier (some contextAddress))
  | .visitFilled cursor =>
      match advance manager.mPendingSubscriptionRequests.keys cursor with
      | none => (manager, .idle)
      | some contextAddress =>
          (manager, if (manager.pendingNames contextAddress).isEmpty then .purge contextAddress
            else .visitFilled (some contextAddress))
  | .purge contextAddress =>
      (manager.erasePendingRequest contextAddress, .visitFilled (some contextAddress))

end ProducerPc

namespace ClientPc

/-- Where a call begins. A request without selections throws at once. -/
def start : ClientCall → ClientPc
  | .subscribe streamIdentifiers =>
      if streamIdentifiers = [] then .idle
      else .next (.names streamIdentifiers (SubscriptionManager.distinctNames streamIdentifiers))
  | .subscribeToAll => .containsAll
  | .unsubscribeFromAll => .removePending

def step (manager : SubscriptionManager) (contextAddress : ContextAddress) :
    ClientPc → SubscriptionManager × ClientPc × Option ClientCall
  | .idle => (manager, .idle, none)
  | .next (.names streamIdentifiers []) => (manager, .reset (.subscribe streamIdentifiers), none)
  | .next (.names streamIdentifiers (streamIdentifier :: rest)) =>
      (manager, if streamIdentifier ∈ manager.mStreamsMap
        then .subscribe (.names streamIdentifiers rest) streamIdentifier streamIdentifier
        else .findPending streamIdentifiers rest streamIdentifier, none)
  | .next (.streams cursor) =>
      match advance manager.mStreamsMap.keys cursor with
      | none => (manager, .insertAll, none)
      | some key =>
          (manager, .subscribe (.streams (some key)) key
            ((manager.mStreamsMap[key]?.map Stream.mStreamIdentifier).getD key), none)
  | .subscribe loop key streamIdentifier =>
      let subscribed := manager.subscribeAt key contextAddress false
      (subscribed.2, if subscribed.1 then .contains loop streamIdentifier else .next loop, none)
  | .contains loop streamIdentifier =>
      (manager, .store loop streamIdentifier
        (manager.mActiveSubscriptionsMap.contains contextAddress), none)
  | .store loop streamIdentifier there =>
      (manager.storeActive contextAddress streamIdentifier there, .next loop, none)
  | .findPending streamIdentifiers rest streamIdentifier =>
      (manager, if contextAddress ∈ manager.mPendingSubscriptionRequests
        then .containsPending streamIdentifiers rest streamIdentifier
        else .newPending streamIdentifiers rest streamIdentifier, none)
  | .containsPending streamIdentifiers rest streamIdentifier =>
      (manager, if streamIdentifier ∈ manager.pendingNames contextAddress
        then .next (.names streamIdentifiers rest)
        else .insertPending streamIdentifiers rest streamIdentifier, none)
  | .insertPending streamIdentifiers rest streamIdentifier =>
      (manager.insertPendingName contextAddress streamIdentifier,
        .next (.names streamIdentifiers rest), none)
  | .newPending streamIdentifiers rest streamIdentifier =>
      (manager.newPendingRequest contextAddress streamIdentifier,
        .next (.names streamIdentifiers rest), none)
  | .containsAll =>
      if contextAddress ∈ manager.mPendingSubscribeToAllRequests
        then (manager, .idle, some .subscribeToAll)
        else (manager, .next (.streams none), none)
  | .insertAll =>
      ({ manager with
          mPendingSubscribeToAllRequests :=
            manager.mPendingSubscribeToAllRequests.insert contextAddress },
        .reset .subscribeToAll, none)
  | .reset call => ({ manager with mNumberOfSubscribers := -1 }, .idle, some call)
  | .removePending =>
      ({ manager with
          mPendingSubscriptionRequests :=
            manager.mPendingSubscriptionRequests.erase contextAddress
          mPendingSubscribeToAllRequests :=
            manager.mPendingSubscribeToAllRequests.erase contextAddress },
        .nextStream none false, none)
  | .nextStream cursor purged =>
      match advance manager.mStreamsMap.keys cursor with
      | none => (manager, .reset .unsubscribeFromAll, none)
      | some key => (manager, .unsubscribe key purged, none)
  | .unsubscribe key purged =>
      let response := manager.unsubscribeAt key contextAddress
      (response.2, match response.1 with
        | .ok .unsubscribed => if purged then .nextStream (some key) purged else .eraseActive key
        | .ok .neverSubscribed => .containsActive key purged
        | .ok .notUnsubscribed | .error _ => .nextStream (some key) purged, none)
  | .containsActive key purged =>
      (manager, if contextAddress ∈ manager.mActiveSubscriptionsMap then .eraseActive key
        else .nextStream (some key) purged, none)
  | .eraseActive key => (manager.eraseActive contextAddress, .nextStream (some key) true, none)

end ClientPc

/-- The manager, the threads, and the history of the calls that returned, last first. -/
structure ConcurrentManager where
  manager : SubscriptionManager
  producer : ProducerPc := .idle
  clients : ContextAddress → ClientPc := fun _ => .idle
  returned : ContextAddress → List ClientCall := fun _ => []

/-- What the scheduler does: start a call on an idle thread, or let a thread make a step. -/
inductive Action where
  | enqueuePacket (packet : Packet)
  | produce
  | call (contextAddress : ContextAddress) (call : ClientCall)
  | proceed (contextAddress : ContextAddress)

namespace ConcurrentManager

/-- A packet that fails the checks of the public call throws before anything is shared. -/
def enqueuePacket (state : ConcurrentManager) (packet : Packet) : ConcurrentManager :=
  match state.producer with
  | .idle => if packet.Accepted then { state with producer := .find packet } else state
  | _ => state

def produce (state : ConcurrentManager) : ConcurrentManager :=
  let next := state.producer.step state.manager
  { state with manager := next.1, producer := next.2 }

def call (state : ConcurrentManager) (contextAddress : ContextAddress) (call : ClientCall) :
    ConcurrentManager :=
  match state.clients contextAddress with
  | .idle =>
      { state with clients := Function.update state.clients contextAddress (ClientPc.start call) }
  | _ => state

def proceed (state : ConcurrentManager) (contextAddress : ContextAddress) : ConcurrentManager :=
  let next := (state.clients contextAddress).step state.manager contextAddress
  { state with
    manager := next.1
    clients := Function.update state.clients contextAddress next.2.1
    returned := Function.update state.returned contextAddress
      (next.2.2.toList ++ state.returned contextAddress) }

end ConcurrentManager

def concurrentMachine : Machine ConcurrentManager Action Unit where
  step state
    | .enqueuePacket packet => (state.enqueuePacket packet, ())
    | .produce => (state.produce, ())
    | .call contextAddress call => (state.call contextAddress call, ())
    | .proceed contextAddress => (state.proceed contextAddress, ())

end UDataPacketService
