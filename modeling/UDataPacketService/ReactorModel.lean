import UDataPacketService.ManagerModel

/-! The write reactors `Subscribe` and `SubscribeToAll` with the callbacks gRPC
delivers to them. A reactor runs beside the other parties of the service: its
polling loop advances pass by pass, and between two passes the manager may serve
other calls, the client may cancel and the server may stop. `Finish` does not
return from the function that calls it, so what follows a `Finish` is executed. -/
namespace UDataPacketService

/-- The codes of `grpc::StatusCode` that the reactors use. -/
inductive StatusCode where
  | ok
  | cancelled
  | unknown
  | invalidArgument
  | resourceExhausted
  | unauthenticated
  | internal
  deriving DecidableEq, Repr

structure Status where
  code : StatusCode
  message : String := ""
  deriving DecidableEq, Repr

namespace Status

def rejected : Status := ⟨.unauthenticated,
  "\nSubscriber must provide access token in x-custom-auth-token header field.\n"⟩
def maxSubscribersHit : Status := ⟨.resourceExhausted, "Max subscribers hit - try again later"⟩
def noStreamsSpecified : Status :=
  ⟨.invalidArgument, "No streams specified - check your selections."⟩
def noStreamsCreated : Status :=
  ⟨.invalidArgument, "No streams created.  Verify your stream selections."⟩
def failedToSubscribe : Status := ⟨.internal, "Failed to subscribe"⟩
def unexpectedFailure : Status := ⟨.unknown, "Unexpected failure"⟩

end Status

/-- `GRPCServerOptions`; the setter refuses an empty token. -/
structure GRPCServerOptions where
  mAccessToken : Option String := none
  nonempty : ∀ token ∈ mAccessToken, token ≠ "" := by simp

def GRPCServerOptions.setAccessToken (token : String) : Except String GRPCServerOptions :=
  if h : token = "" then .error "Token is empty"
  else .ok ⟨some token, by rintro t ht rfl; exact h (Option.some.inj ht)⟩

/-- `ServerOptions`; the setter refuses a limit that is not positive. -/
structure ServerOptions where
  mGRPCOptions : GRPCServerOptions := {}
  mMaximumNumberOfSubscribers : Int := 8
  positive : 0 < mMaximumNumberOfSubscribers := by decide

def ServerOptions.setMaximumNumberOfSubscribers (options : ServerOptions) (maxSubscribers : Int) :
    Except String ServerOptions :=
  if h : maxSubscribers ≤ 0 then .error "Max number of subscribers must be positive"
  else .ok { options with mMaximumNumberOfSubscribers := maxSubscribers, positive := by omega }

/-- The two methods of the service, with what the request selects. -/
inductive Request where
  | subscribe (selections : List StreamIdentifier)
  | subscribeToAll
  deriving DecidableEq, Repr

structure IncomingCall where
  context : ContextAddress
  request : Request
  clientMetadata : List (String × String) := []
  isSecureConnection : Bool := false
  isCancelled : Bool := false

/-- The two counters of `MetricsSingleton` that the reactors update. -/
structure Metrics where
  mSentPacketsCounter : Int := 0
  mUtilization : ℚ := 0

def Metrics.incrementSentPacketsCounter (metrics : Metrics) : Metrics :=
  { metrics with mSentPacketsCounter := metrics.mSentPacketsCounter + 1 }

def Metrics.updateUtilization (metrics : Metrics) (utilization : ℚ) : Metrics :=
  { metrics with mUtilization := min (max 0 utilization) 1 }

structure Service where
  mOptions : ServerOptions
  mSubscriptionManager : SubscriptionManager
  mMetrics : Metrics := {}
  mKeepRunning : Bool := true

inductive ReactorCall where
  | finish (status : Status)
  | startWrite (packet : Packet)
  deriving DecidableEq

/-- The members of a reactor, and the state gRPC keeps for its RPC: the calls made
so far, the writes in flight and whether `nextWrite` is still polling. -/
structure Reactor where
  mContextAddress : ContextAddress
  mMaximumQueueSize : ℕ := 2048
  mPacketsQueue : List Packet := []
  mSubscribed : Bool := false
  mWriteInProgress : Bool := false
  isCancelled : Bool := false
  calls : List ReactorCall := []
  outstandingWrites : ℕ := 0
  polling : Bool := false
  cancelDelivered : Bool := false
  done : Bool := false

structure Session where
  service : Service
  reactor : Reactor

def validateSubscriber (clientMetadata : List (String × String)) (accessToken : String) : Bool :=
  if accessToken = "" then true
  else clientMetadata.any (fun item => item.1 == "x-custom-auth-token" && item.2 == accessToken)

namespace Session

def finish (session : Session) (status : Status) : Session :=
  { session with
    reactor := { session.reactor with calls := session.reactor.calls ++ [.finish status] } }

def startWrite (session : Session) (packet : Packet) : Session :=
  { service := { session.service with
      mMetrics := session.service.mMetrics.incrementSentPacketsCounter }
    reactor := { session.reactor with
      mWriteInProgress := true
      calls := session.reactor.calls ++ [.startWrite packet]
      outstandingWrites := session.reactor.outstandingWrites + 1
      polling := false } }

/-- `mSubscriptionManager->unsubscribeFromAll` if `mSubscribed` is up. -/
def unsubscribe (session : Session) : Session :=
  if session.reactor.mSubscribed then
    { service := { session.service with
        mSubscriptionManager := session.service.mSubscriptionManager.unsubscribeFromAll
          session.reactor.mContextAddress }
      reactor := { session.reactor with mSubscribed := false } }
  else session

/-- `mSubscriptionManager->getNumberOfSubscribers`, which may fill the cached count. -/
def getNumberOfSubscribers (session : Session) : Int × Session :=
  let counted := session.service.mSubscriptionManager.getNumberOfSubscribers
  (counted.1, { session with
    service := { session.service with mSubscriptionManager := counted.2 } })

/-- The part of `nextWrite` behind the loop. -/
def leave (session : Session) : Session :=
  let session := session.unsubscribe
  let session := session.finish
    (if session.reactor.isCancelled then ⟨.cancelled, ""⟩ else ⟨.ok, ""⟩)
  { session with reactor := { session.reactor with polling := false } }

/-- The loop that queues what `getPackets` returned. -/
def pushPackets (mMaximumQueueSize : ℕ) (mPacketsQueue packetsBuffer : List Packet) : List Packet :=
  packetsBuffer.foldl (fun queue packet =>
    (if mMaximumQueueSize < queue.length then queue.tail else queue) ++ [packet]) mPacketsQueue

def fetchPackets (session : Session) : Session :=
  let pulled := session.service.mSubscriptionManager.getPackets session.reactor.mContextAddress
  { service := { session.service with mSubscriptionManager := pulled.2 }
    reactor := { session.reactor with
      mPacketsQueue := pushPackets session.reactor.mMaximumQueueSize
        session.reactor.mPacketsQueue pulled.1 } }

/-- One pass of the loop of `nextWrite`, or the part behind the loop. -/
def nextWritePass (session : Session) : Session :=
  if !session.service.mKeepRunning || session.reactor.isCancelled then session.leave
  else
    match session.reactor.mPacketsQueue with
    | [] => session.fetchPackets
    | packet :: _ => if session.reactor.mWriteInProgress then session else session.startWrite packet

def enterLoop (session : Session) : Session :=
  { session with reactor := { session.reactor with polling := true } }

/-- `nextWrite`: the loop is entered and makes its first pass. -/
def nextWrite (session : Session) : Session := session.enterLoop.nextWritePass

/-- The access check of both constructors. -/
def authenticate (session : Session) (call : IncomingCall) : Session :=
  match session.service.mOptions.mGRPCOptions.mAccessToken with
  | some accessToken =>
      if call.isSecureConnection then
        if validateSubscriber call.clientMetadata accessToken then session
        else session.finish .rejected
      else session
  | none => session

/-- The capacity check of both constructors. -/
def checkCapacity (session : Session) : Session :=
  let counted := session.getNumberOfSubscribers
  if session.service.mOptions.mMaximumNumberOfSubscribers ≤ counted.1 then
    counted.2.finish .maxSubscribersHit
  else counted.2

def subscribed (session : Session) (manager : SubscriptionManager) : Session :=
  let session : Session :=
    { service := { session.service with mSubscriptionManager := manager }
      reactor := { session.reactor with mSubscribed := true } }
  let counted := session.getNumberOfSubscribers
  let utilization : ℚ := counted.1 / max 1 session.service.mOptions.mMaximumNumberOfSubscribers
  { counted.2 with service := { counted.2.service with
      mMetrics := counted.2.service.mMetrics.updateUtilization utilization } }

/-- The guarded block of `Subscribe::Subscribe`. An identifier always has a name,
so the handler around `toName` is never entered. -/
def subscribeToSelections (session : Session) (selections : List StreamIdentifier) : Session :=
  let session := if selections = [] then session.finish .noStreamsSpecified else session
  let streamSelections := SubscriptionManager.distinctIdentifiers selections
  let session := if streamSelections = [] then session.finish .noStreamsCreated else session
  match session.service.mSubscriptionManager.subscribe session.reactor.mContextAddress
      streamSelections with
  | .ok manager => session.subscribed manager
  | .error _ => session.finish .failedToSubscribe

/-- The guarded block of `SubscribeToAll::SubscribeToAll`, where nothing throws. -/
def subscribeToAll (session : Session) : Session :=
  session.subscribed (session.service.mSubscriptionManager.subscribeToAll
    session.reactor.mContextAddress)

/-- What both constructors do before they start to write. -/
def register (service : Service) (call : IncomingCall) : Session :=
  let session : Session :=
    ⟨service, { mContextAddress := call.context, isCancelled := call.isCancelled }⟩
  let session := (session.authenticate call).checkCapacity
  match call.request with
  | .subscribe selections => session.subscribeToSelections selections
  | .subscribeToAll => session.subscribeToAll

def construct (service : Service) (call : IncomingCall) : Session :=
  (register service call).nextWrite

def onWriteDone (session : Session) (ok : Bool) : Session :=
  if ok then
    nextWrite { session with reactor := { session.reactor with
      mWriteInProgress := false
      mPacketsQueue := session.reactor.mPacketsQueue.tail } }
  else
    if session.reactor.isCancelled then session.finish ⟨.cancelled, ""⟩
    else session.finish .unexpectedFailure

def answerWrite (session : Session) : Session :=
  { session with reactor := { session.reactor with
    outstandingWrites := session.reactor.outstandingWrites - 1 } }

def onCancel (session : Session) : Session := session.unsubscribe

/-- The utilization is only logged here, so the count is all that is left of it. -/
def onDone (session : Session) : Session := session.unsubscribe.getNumberOfSubscribers.2

end Session

/-- What happens at one reactor: the client cancels, the loop makes a pass, or gRPC
delivers a callback. -/
inductive ReactorEvent where
  | cancel
  | pass
  | onWriteDone (ok : Bool)
  | onCancel
  | onDone
  deriving DecidableEq

def ReactorCall.isFinish : ReactorCall → Bool
  | .finish _ => true
  | .startWrite _ => false

/-- When the event can happen: one `OnWriteDone` for each write in flight, one
`OnCancel` after a cancellation, and `OnDone` last. -/
def ReactorEvent.Deliverable (reactor : Reactor) : ReactorEvent → Prop
  | .cancel => True
  | .pass => reactor.polling = true
  | .onWriteDone _ => 0 < reactor.outstandingWrites ∧ reactor.polling = false
  | .onCancel => reactor.isCancelled = true ∧ reactor.cancelDelivered = false
  | .onDone => reactor.calls.any ReactorCall.isFinish = true ∧ reactor.outstandingWrites = 0 ∧
      reactor.polling = false

instance (reactor : Reactor) (event : ReactorEvent) : Decidable (event.Deliverable reactor) := by
  cases event <;> unfold ReactorEvent.Deliverable <;> infer_instance

namespace Session

/-- A deliverable event runs its callback; a reactor that is done takes no events. -/
def react (session : Session) (event : ReactorEvent) : Session :=
  if session.reactor.done = true ∨ ¬event.Deliverable session.reactor then session
  else
    match event with
    | .cancel => { session with reactor := { session.reactor with isCancelled := true } }
    | .pass => session.nextWritePass
    | .onWriteDone ok => session.answerWrite.onWriteDone ok
    | .onCancel =>
        onCancel { session with reactor := { session.reactor with cancelDelivered := true } }
    | .onDone =>
        let session := session.onDone
        { session with reactor := { session.reactor with done := true } }

end Session

inductive SessionEvent where
  | reactor (event : ReactorEvent)
  | stopServer
  | environment (operation : Operation)

def Session.stopServer (session : Session) : Session :=
  { session with service := { session.service with mKeepRunning := false } }

/-- A reactor beside the rest of the service. The calls of its own context are
its own, so the environment makes none of them. -/
def sessionMachine : Machine Session SessionEvent Unit where
  step session
    | .reactor event => (session.react event, ())
    | .stopServer => (session.stopServer, ())
    | .environment operation =>
        if operation.client = some session.reactor.mContextAddress then (session, ())
        else ({ session with service := { session.service with
          mSubscriptionManager :=
            (managerMachine.step session.service.mSubscriptionManager operation).1 } }, ())

/-- The service with the reactor of every live context. -/
structure Server where
  service : Service
  reactors : ContextAddress → Option Reactor := fun _ => none

inductive ServerEvent where
  | connect (call : IncomingCall)
  | enqueuePacket (packet : Packet)
  | reactor (context : ContextAddress) (event : ReactorEvent)
  | stopServer

namespace Server

def start (options : ServerOptions) (streamOptions : StreamOptions) : Server where
  service := { mOptions := options, mSubscriptionManager := .fresh streamOptions }

/-- The address of a live context is not given to another call. -/
def connect (server : Server) (call : IncomingCall) : Server :=
  match server.reactors call.context with
  | some _ => server
  | none =>
      let session := Session.construct server.service call
      ⟨session.service, Function.update server.reactors call.context (some session.reactor)⟩

def enqueuePacket (server : Server) (packet : Packet) : Server :=
  { server with service := { server.service with
    mSubscriptionManager :=
      (managerMachine.step server.service.mSubscriptionManager (.enqueuePacket packet)).1 } }

def react (server : Server) (context : ContextAddress) (event : ReactorEvent) : Server :=
  match server.reactors context with
  | none => server
  | some reactor =>
      let session := Session.react ⟨server.service, reactor⟩ event
      ⟨session.service, Function.update server.reactors context
        (if session.reactor.done then none else some session.reactor)⟩

end Server

def serverMachine : Machine Server ServerEvent Unit where
  step server
    | .connect call => (server.connect call, ())
    | .enqueuePacket packet => (server.enqueuePacket packet, ())
    | .reactor context event => (server.react context event, ())
    | .stopServer => ({ server with service := { server.service with mKeepRunning := false } }, ())

end UDataPacketService
