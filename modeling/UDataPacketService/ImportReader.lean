import UDataPacketService.MachineParts
import UDataPacketService.PacketConverter
import UDataPacketService.SubscriberModel

/-! The RPC of the subscriber: the thread in `await`, and `OnReadDone` on a thread of
gRPC, which read the flags of each other in separate steps. With it the subscriber still
moves as without it, and the RPC is one of its connections. -/
namespace UDataPacketService

inductive Await where
  | testsDone
  | loadsKeepRunning
  | loadsTryCancel
  | storesTryCancel
  | cancels
  | waits
  deriving DecidableEq

inductive OnReadDone where
  | returned
  | addsPacket (copy : ImportAPI.Packet)
  | loadsKeepRunning (ok : Bool)
  | loadsTryCancel
  | storesTryCancel
  | cancels
  | startsRead
  deriving DecidableEq

/-- The members of `AsyncPacketSubscriber`, where its two threads are, and what gRPC
knows of the RPC: whether a read is outstanding, whether one has failed, and how often
`TryCancel` was called. The constructor starts the first read. -/
structure AsyncPacketSubscriber where
  await : Await := .testsDone
  onReadDone : OnReadDone := .returned
  /-- `mStatus`, once `mDone` is set. -/
  mStatus : Option RPCStatusCode := none
  mTryCancel : Bool := false
  mHadSuccessfulRead : Bool := false
  reading : Bool := true
  readFailed : Bool := false
  cancels : ℕ := 0
  deriving DecidableEq

/-- A thread takes its next step, the wait returns, or gRPC calls the reactor. -/
inductive RPCEvent where
  | await
  | waitReturns
  | onReadDone (read : Option ImportAPI.Packet)
  | reactor
  | onDone (status : RPCStatusCode)

inductive RPCAction where
  | nothing
  | storedTryCancel
  | addsPacket (copy : ImportAPI.Packet)
  | awaited (outcome : ConnectionOutcome)

namespace AsyncPacketSubscriber

def stepAwait (subscriber : AsyncPacketSubscriber) (mKeepRunning : Bool) :
    AsyncPacketSubscriber × RPCAction :=
  match subscriber.await with
  | .testsDone =>
      match subscriber.mStatus with
      | some status => (subscriber, .awaited ⟨status, subscriber.mHadSuccessfulRead⟩)
      | none => ({ subscriber with await := .loadsKeepRunning }, .nothing)
  | .loadsKeepRunning =>
      ({ subscriber with await := if mKeepRunning then .waits else .loadsTryCancel }, .nothing)
  | .loadsTryCancel =>
      ({ subscriber with await := if subscriber.mTryCancel then .waits else .storesTryCancel },
        .nothing)
  | .storesTryCancel =>
      ({ subscriber with mTryCancel := true, await := .cancels }, .storedTryCancel)
  | .cancels => ({ subscriber with cancels := subscriber.cancels + 1, await := .waits }, .nothing)
  | .waits => (subscriber, .nothing)

/-- `wait_for` returns because of a notification or for the time. -/
def waitReturns (subscriber : AsyncPacketSubscriber) : AsyncPacketSubscriber :=
  if subscriber.await = .waits then { subscriber with await := .testsDone } else subscriber

/-- gRPC answers the outstanding read with a packet, or with `ok` false. -/
def onReadDoneCalled (subscriber : AsyncPacketSubscriber) (read : Option ImportAPI.Packet) :
    AsyncPacketSubscriber :=
  if subscriber.reading ∧ subscriber.onReadDone = .returned then
    match read with
    | some mPacket =>
        { subscriber with
            reading := false
            mHadSuccessfulRead := true
            onReadDone := .addsPacket mPacket }
    | none =>
        { subscriber with
            reading := false
            readFailed := true
            onReadDone := .loadsKeepRunning false }
  else subscriber

def stepOnReadDone (subscriber : AsyncPacketSubscriber) (mKeepRunning : Bool) :
    AsyncPacketSubscriber × RPCAction :=
  match subscriber.onReadDone with
  | .returned => (subscriber, .nothing)
  | .addsPacket copy => ({ subscriber with onReadDone := .loadsKeepRunning true }, .addsPacket copy)
  | .loadsKeepRunning ok =>
      ({ subscriber with onReadDone :=
          if !mKeepRunning then .loadsTryCancel else if ok then .startsRead else .returned },
        .nothing)
  | .loadsTryCancel =>
      ({ subscriber with onReadDone :=
          if subscriber.mTryCancel then .returned else .storesTryCancel }, .nothing)
  | .storesTryCancel =>
      ({ subscriber with mTryCancel := true, onReadDone := .cancels }, .storedTryCancel)
  | .cancels =>
      ({ subscriber with cancels := subscriber.cancels + 1, onReadDone := .returned }, .nothing)
  | .startsRead => ({ subscriber with reading := true, onReadDone := .returned }, .nothing)

/-- `OnDone`, which gRPC calls once, when no read is outstanding and no callback runs. -/
def onDone (subscriber : AsyncPacketSubscriber) (status : RPCStatusCode) : AsyncPacketSubscriber :=
  if subscriber.reading = false ∧ subscriber.onReadDone = .returned ∧ subscriber.mStatus = none then
    { subscriber with mStatus := some status }
  else subscriber

def step (subscriber : AsyncPacketSubscriber) (mKeepRunning : Bool) :
    RPCEvent → AsyncPacketSubscriber × RPCAction
  | .await => subscriber.stepAwait mKeepRunning
  | .waitReturns => (subscriber.waitReturns, .nothing)
  | .onReadDone read => (subscriber.onReadDoneCalled read, .nothing)
  | .reactor => subscriber.stepOnReadDone mKeepRunning
  | .onDone status => (subscriber.onDone status, .nothing)

end AsyncPacketSubscriber

/-- The subscriber and the RPC in the scope of its loop. -/
structure SubscriberThread where
  impl : SubscriberImpl
  subscriber : Option AsyncPacketSubscriber := none

inductive ReaderEvent where
  | stop
  | acquirePackets
  | waitReturns
  | onReadDone (read : Option ImportAPI.Packet)
  | reactor
  | onDone (status : RPCStatusCode)

/-- The event that a step is for the subscriber, or the packet that it gives the callback. -/
inductive ReaderAction where
  | nothing
  | moved (event : SubscriberEvent) (action : SubscriberAction)
  | addsPacket (copy : ImportAPI.Packet)
  deriving DecidableEq

namespace SubscriberThread

def move (thread : SubscriberThread) (event : SubscriberEvent)
    (subscriber : Option AsyncPacketSubscriber) : SubscriberThread × ReaderAction :=
  let next := subscriberMachine.step thread.impl event
  (⟨next.1, subscriber⟩, .moved event next.2)

/-- A step of the subscriber without an RPC; the one that connects opens one. -/
def stepWithout (thread : SubscriberThread) (event : SubscriberEvent) :
    SubscriberThread × ReaderAction :=
  thread.move event
    (if (subscriberMachine.step thread.impl event).2 = .startsRPC then some {} else none)

/-- A step of the RPC. The store of `mTryCancel` is the step by which the subscriber
cancels its connection, the return of `await` the one by which it ends. -/
def stepRPC (thread : SubscriberThread) (subscriber : AsyncPacketSubscriber) (event : RPCEvent) :
    SubscriberThread × ReaderAction :=
  let next := subscriber.step thread.impl.mKeepRunning event
  match next.2 with
  | .nothing => (⟨thread.impl, some next.1⟩, .nothing)
  | .storedTryCancel => thread.move .acquirePackets (some next.1)
  | .addsPacket copy => (⟨thread.impl, some next.1⟩, .addsPacket copy)
  | .awaited outcome => thread.move (.onDone outcome) none

end SubscriberThread

def readerMachine : Machine SubscriberThread ReaderEvent ReaderAction where
  step thread event :=
    match event, thread.subscriber with
    | .stop, subscriber => thread.move .stop subscriber
    | .acquirePackets, some subscriber => thread.stepRPC subscriber .await
    | .acquirePackets, none => thread.stepWithout .acquirePackets
    | .waitReturns, some subscriber => thread.stepRPC subscriber .waitReturns
    | .waitReturns, none => thread.stepWithout .waitReturns
    | .onReadDone read, some subscriber => thread.stepRPC subscriber (.onReadDone read)
    | .reactor, some subscriber => thread.stepRPC subscriber .reactor
    | .onDone status, some subscriber => thread.stepRPC subscriber (.onDone status)
    | .onReadDone _, none | .reactor, none | .onDone _, none => (thread, .nothing)

def SubscriberThread.start (options : SubscriberOptions) : SubscriberThread where
  impl := .start options

def ReaderAction.moved? : ReaderAction → Option (SubscriberEvent × SubscriberAction)
  | .moved event action => some (event, action)
  | .nothing | .addsPacket _ => none

def ReaderAction.packets (earlier : List ImportAPI.Packet) : ReaderAction → List ImportAPI.Packet
  | .addsPacket copy => earlier ++ [copy]
  | .moved _ .startsRPC => []
  | .nothing | .moved _ _ => earlier

/-- The packets that the callback was given since the last RPC was started. -/
def packetsOfRPC (actions : List ReaderAction) : List ImportAPI.Packet :=
  actions.foldl ReaderAction.packets []

end UDataPacketService
