import UDataPacketService.ImportQueue
import UDataPacketService.ReaderProtocol
import UDataPacketService.CallInterleaving

/-! The process with all its threads: the subscriber whose callback fills the import
queue, the thread that hands the packets on to the server, the reactors of the server,
and the main thread, which waits for a signal or a failure and stops the others. Each
step of the process is a step of one of the machines of these parts, or of none. -/
namespace UDataPacketService

inductive PropagateImportPackets where
  | loadsKeepRunning
  | pops
  | enqueues (packet : Packet)
  | sleeps
  | returned
  deriving DecidableEq

def PropagateImportPackets.packet : PropagateImportPackets → Option Packet
  | .enqueues packet => some packet
  | .loadsKeepRunning | .pops | .sleeps | .returned => none

inductive AcquisitionFailure where
  | runtimeError (what : String)
  | outOfRange
  deriving DecidableEq

/-- Where the main thread is: in the loop of `handleMainThread`, in `stop`, in the
`stop` of the subscriber or of the server that it calls, or at a future. -/
inductive MainThread where
  | testsInterrupted
  | checksPropagation
  | checksAcquisition (isOkay : Bool)
  | waits
  | storesKeepRunning
  | stopsSubscriber
  | notifiesSubscriber
  | clearsSubscriber
  | stopsService
  | unsubscribesAll
  | shutsDown
  | waitsForReactors
  | getsPropagation
  | getsAcquisition
  | returned
  | threw (failure : AcquisitionFailure)
  deriving DecidableEq

/-- The members of `Process` and of the objects it owns. gRPC knows the calls it has
accepted, and whether it accepts more. -/
structure ServiceProcess where
  mSubscriber : SubscriberThread
  imports : ImportProcess
  mService : BusyServer
  propagateImportPackets : PropagateImportPackets := .loadsKeepRunning
  mainThread : MainThread := .testsInterrupted
  mKeepRunning : Bool := true
  mInterrupted : Bool := false
  /-- `valid()` of the two futures, in the order of `mFutures`. -/
  propagation : Bool := true
  acquisition : Bool := true
  calls : List ContextAddress := []
  shutdown : Bool := false

def ServiceProcess.start (maximumImportQueueSize : ℕ) (subscriberOptions : SubscriberOptions)
    (serverOptions : ServerOptions) (streamOptions : StreamOptions) : ServiceProcess where
  mSubscriber := .start subscriberOptions
  imports := .start maximumImportQueueSize
  mService := .start serverOptions streamOptions

/-- A signal arrives, a thread takes a step, or gRPC does something. -/
inductive ProcessEvent where
  | signal
  | mainThread
  | propagateImportPackets
  | acquirePackets
  | waitReturns
  | onReadDone (read : Option ImportAPI.Packet)
  | stepOnReadDone
  | onDone (status : RPCStatusCode)
  | connect (call : IncomingCall)
  | proceed (context : ContextAddress)
  | reactor (context : ContextAddress) (event : ReactorEvent)

structure ProcessAction where
  imported : Option (ImportEvent × ImportOutcome) := none
  called : Option CallEvent := none
  acquired : Option (ReaderEvent × ReaderAction) := none

namespace ServiceProcess

def importStep (process : ServiceProcess) (event : ImportEvent) : ServiceProcess × ProcessAction :=
  let next := importMachine.step process.imports event
  ({ process with imports := next.1 }, { imported := some (event, next.2) })

def call (process : ServiceProcess) (event : CallEvent) : ServiceProcess × ProcessAction :=
  ({ process with mService := (callMachine.step process.mService event).1 },
    { called := some event })

/-- A step of the subscriber. A packet that it reads goes to `addPacketCallback`. -/
def acquire (process : ServiceProcess) (event : ReaderEvent) : ServiceProcess × ProcessAction :=
  let next := readerMachine.step process.mSubscriber event
  match next.2 with
  | .addsPacket copy =>
      let added := importMachine.step process.imports (.receive copy)
      ({ process with mSubscriber := next.1, imports := added.1 },
        { acquired := some (event, next.2), imported := some (.receive copy, added.2) })
  | _ => ({ process with mSubscriber := next.1 }, { acquired := some (event, next.2) })

/-- The next step of `OnReadDone`, which waits for the callback that it has called. -/
def stepOnReadDone (process : ServiceProcess) : ServiceProcess × ProcessAction :=
  if process.imports.addPacketCallback = .returned then process.acquire .reactor
  else process.importStep .addPacketCallback

def goTo (step : ServiceProcess × ProcessAction) (place : MainThread) :
    ServiceProcess × ProcessAction :=
  ({ step.1 with mainThread := place }, step.2)

/-- `wait_for` and `get` of a future in `checkFuturesOkay`. A future that was taken
before makes `wait_for` throw, a ready one is taken, and `get` throws what it holds. -/
def checkFuture (valid ready failed : Bool) : Bool × Bool :=
  if !valid then (valid, false) else if ready then (false, !failed) else (valid, true)

def acquisitionEnd (process : ServiceProcess) : Option (Option AcquisitionFailure) :=
  match process.mSubscriber.impl.acquirePackets with
  | .returned => some none
  | .threw what => some (some (.runtimeError what))
  | .outOfRange => some (some .outOfRange)
  | _ => none

/-- The next step of the main thread. -/
def stepMainThread (process : ServiceProcess) : ServiceProcess × ProcessAction :=
  match process.mainThread with
  | .testsInterrupted =>
      ({ process with mainThread :=
          if process.mInterrupted then .storesKeepRunning else .checksPropagation }, {})
  | .checksPropagation =>
      let checked := checkFuture process.propagation
        (process.propagateImportPackets == .returned) false
      ({ process with propagation := checked.1, mainThread := .checksAcquisition checked.2 },
        {})
  | .checksAcquisition isOkay =>
      let checked := checkFuture process.acquisition process.acquisitionEnd.isSome
        (process.acquisitionEnd.getD none).isSome
      ({ process with
          acquisition := checked.1
          mainThread := if isOkay && checked.2 then .waits else .storesKeepRunning }, {})
  | .waits => ({ process with mainThread := .testsInterrupted }, {})
  | .storesKeepRunning =>
      ({ process with mKeepRunning := false, mainThread := .stopsSubscriber }, {})
  | .stopsSubscriber => goTo (process.acquire .stop) .notifiesSubscriber
  | .notifiesSubscriber => goTo (process.acquire .stop) .clearsSubscriber
  | .clearsSubscriber => goTo (process.acquire .stop) .stopsService
  | .stopsService => goTo (process.call .stopServer) .unsubscribesAll
  | .unsubscribesAll => goTo (process.call .unsubscribeAll) .shutsDown
  | .shutsDown => ({ process with shutdown := true, mainThread := .waitsForReactors }, {})
  | .waitsForReactors =>
      if process.calls.all (fun context => (process.mService.server.reactors context).isNone) then
        ({ process with mainThread := .getsPropagation }, {})
      else (process, {})
  | .getsPropagation =>
      if process.propagation then
        if process.propagateImportPackets = .returned then
          ({ process with propagation := false, mainThread := .getsAcquisition }, {})
        else (process, {})
      else ({ process with mainThread := .getsAcquisition }, {})
  | .getsAcquisition =>
      if process.acquisition then
        match process.acquisitionEnd with
        | none => (process, {})
        | some none => ({ process with acquisition := false, mainThread := .returned }, {})
        | some (some failure) =>
            ({ process with acquisition := false, mainThread := .threw failure }, {})
      else ({ process with mainThread := .returned }, {})
  | .returned => (process, {})
  | .threw _ => (process, {})

/-- The next step of `propagateImportPackets`. What `enqueuePacket` throws is caught. -/
def stepPropagation (process : ServiceProcess) : ServiceProcess × ProcessAction :=
  match process.propagateImportPackets with
  | .loadsKeepRunning =>
      ({ process with propagateImportPackets :=
          if process.mKeepRunning then .pops else .returned }, {})
  | .pops =>
      let next := process.importStep .propagateImportPackets
      ({ next.1 with propagateImportPackets :=
          match process.imports.propagateImportPackets.2 with
          | .propagated packet => .enqueues packet
          | _ => .sleeps }, next.2)
  | .enqueues packet =>
      let next := process.call (.enqueuePacket packet)
      ({ next.1 with propagateImportPackets := .loadsKeepRunning }, next.2)
  | .sleeps => ({ process with propagateImportPackets := .loadsKeepRunning }, {})
  | .returned => (process, {})

/-- gRPC accepts no call once `Shutdown` was called. -/
def connect (process : ServiceProcess) (incoming : IncomingCall) : ServiceProcess × ProcessAction :=
  if process.shutdown then (process, {})
  else
    let next := process.call (.connect incoming)
    ({ next.1 with calls := incoming.context :: process.calls }, next.2)

end ServiceProcess

def processMachine : Machine ServiceProcess ProcessEvent ProcessAction where
  step process
    | .signal => ({ process with mInterrupted := true }, {})
    | .mainThread => process.stepMainThread
    | .propagateImportPackets => process.stepPropagation
    | .acquirePackets => process.acquire .acquirePackets
    | .waitReturns => process.acquire .waitReturns
    | .onReadDone read => process.acquire (.onReadDone read)
    | .stepOnReadDone => process.stepOnReadDone
    | .onDone status => process.acquire (.onDone status)
    | .connect call => process.connect call
    | .proceed context => process.call (.proceed context)
    | .reactor context event => process.call (.reactor context event)

namespace ServiceProcess

/-- What the main thread decides by what it finds of the other threads: its next place,
and which of the futures are valid there. -/
inductive Decides (process : ServiceProcess) : MainThread → MainThread → Bool → Bool → Prop where
  | interrupted (on : process.mInterrupted = true) :
      Decides process .testsInterrupted .storesKeepRunning process.propagation process.acquisition
  | goesOn :
      Decides process .testsInterrupted .checksPropagation process.propagation process.acquisition
  | checksPropagation {isOkay propagation : Bool}
      (checked : checkFuture process.propagation (process.propagateImportPackets == .returned)
        false = (propagation, isOkay)) :
      Decides process .checksPropagation (.checksAcquisition isOkay) propagation
        process.acquisition
  | checksAcquisition {isOkay acquisition isAcquired : Bool}
      (checked : checkFuture process.acquisition process.acquisitionEnd.isSome
        (process.acquisitionEnd.getD none).isSome = (acquisition, isAcquired)) :
      Decides process (.checksAcquisition isOkay)
        (if isOkay && isAcquired then .waits else .storesKeepRunning) process.propagation
        acquisition
  | waits : Decides process .waits .testsInterrupted process.propagation process.acquisition
  | drains (drained : ∀ c ∈ process.calls, process.mService.server.reactors c = none) :
      Decides process .waitsForReactors .getsPropagation process.propagation process.acquisition
  | getsPropagation (returned : process.propagateImportPackets = .returned) :
      Decides process .getsPropagation .getsAcquisition false process.acquisition
  | skipsPropagation (invalid : process.propagation = false) :
      Decides process .getsPropagation .getsAcquisition process.propagation process.acquisition
  | getsAcquisition (valid : process.acquisition = true)
      (ended : process.acquisitionEnd = some none) :
      Decides process .getsAcquisition .returned process.propagation false
  | throws {failure : AcquisitionFailure} (valid : process.acquisition = true)
      (ended : process.acquisitionEnd = some (some failure)) :
      Decides process .getsAcquisition (.threw failure) process.propagation false
  | skipsAcquisition (invalid : process.acquisition = false) :
      Decides process .getsAcquisition .returned process.propagation process.acquisition

/-- What the main thread waits for at a place, or that it is through. -/
def Blocked (process : ServiceProcess) : MainThread → Prop
  | .waitsForReactors => ∃ c ∈ process.calls, process.mService.server.reactors c ≠ none
  | .getsPropagation => process.propagateImportPackets ≠ .returned
  | .getsAcquisition => process.acquisitionEnd = none
  | .returned | .threw _ => True
  | _ => False

/-- A step of the main thread: it waits, decides where it goes, or turns something off. -/
inductive MovesMain (process : ServiceProcess) :
    MainThread → ServiceProcess × ProcessAction → Prop where
  | stays {place : MainThread} (blocked : process.Blocked place) :
      MovesMain process place (process, {})
  | decides {place next : MainThread} {propagation acquisition : Bool}
      (decision : process.Decides place next propagation acquisition) :
      MovesMain process place ({ process with
        mainThread := next, propagation := propagation, acquisition := acquisition }, {})
  | storesKeepRunning : MovesMain process .storesKeepRunning
      ({ process with mKeepRunning := false, mainThread := .stopsSubscriber }, {})
  | stopsSubscriber : MovesMain process .stopsSubscriber
      (goTo (process.acquire .stop) .notifiesSubscriber)
  | notifiesSubscriber : MovesMain process .notifiesSubscriber
      (goTo (process.acquire .stop) .clearsSubscriber)
  | clearsSubscriber : MovesMain process .clearsSubscriber
      (goTo (process.acquire .stop) .stopsService)
  | stopsService : MovesMain process .stopsService
      (goTo (process.call .stopServer) .unsubscribesAll)
  | unsubscribesAll : MovesMain process .unsubscribesAll
      (goTo (process.call .unsubscribeAll) .shutsDown)
  | shutsDown : MovesMain process .shutsDown
      ({ process with shutdown := true, mainThread := .waitsForReactors }, {})

theorem movesMain (process : ServiceProcess) :
    process.MovesMain process.mainThread process.stepMainThread := by
  unfold stepMainThread
  cases process.mainThread with
  | testsInterrupted =>
      simp only
      split
      · exact .decides (.interrupted ‹_›)
      · exact .decides .goesOn
  | checksPropagation => exact .decides (.checksPropagation rfl)
  | checksAcquisition isOkay => exact .decides (.checksAcquisition rfl)
  | waits => exact .decides .waits
  | storesKeepRunning => exact .storesKeepRunning
  | stopsSubscriber => exact .stopsSubscriber
  | notifiesSubscriber => exact .notifiesSubscriber
  | clearsSubscriber => exact .clearsSubscriber
  | stopsService => exact .stopsService
  | unsubscribesAll => exact .unsubscribesAll
  | shutsDown => exact .shutsDown
  | waitsForReactors =>
      simp only
      split
      · rename_i drained
        exact .decides (.drains (fun c called =>
          Option.isNone_iff_eq_none.mp (List.all_eq_true.mp drained c called)))
      · rename_i left
        refine .stays ?_
        simpa [Blocked, Option.isSome_iff_ne_none] using left
  | getsPropagation =>
      simp only
      split
      · split
        · exact .decides (.getsPropagation ‹_›)
        · exact .stays ‹_›
      · exact .decides (.skipsPropagation (Bool.eq_false_iff.mpr ‹_›))
  | getsAcquisition =>
      simp only
      split
      · split
        · exact .stays ‹_›
        · exact .decides (.getsAcquisition ‹_› ‹_›)
        · exact .decides (.throws ‹_› ‹_›)
      · exact .decides (.skipsAcquisition (Bool.eq_false_iff.mpr ‹_›))
  | returned | threw => exact .stays trivial

end ServiceProcess

/-- What a step does to the parts of the process. -/
inductive ServiceProcess.Does (process : ServiceProcess) : ServiceProcess → ProcessAction → Prop where
  | nothing (next : ServiceProcess) (subscriber : next.mSubscriber = process.mSubscriber)
      (imports : next.imports = process.imports) (service : next.mService = process.mService) :
      Does process next {}
  | imports (next : ServiceProcess) (event : ImportEvent)
      (subscriber : next.mSubscriber = process.mSubscriber)
      (imports : next.imports = (importMachine.step process.imports event).1)
      (service : next.mService = process.mService) :
      Does process next { imported := some (event, (importMachine.step process.imports event).2) }
  | calls (next : ServiceProcess) (event : CallEvent)
      (subscriber : next.mSubscriber = process.mSubscriber)
      (imports : next.imports = process.imports)
      (service : next.mService = (callMachine.step process.mService event).1) :
      Does process next { called := some event }
  | acquires (next : ServiceProcess) (event : ReaderEvent)
      (subscriber : next.mSubscriber = (readerMachine.step process.mSubscriber event).1)
      (imports : next.imports = process.imports) (service : next.mService = process.mService) :
      Does process next { acquired := some (event, (readerMachine.step process.mSubscriber event).2) }
  | reads (next : ServiceProcess) (event : ReaderEvent) (copy : ImportAPI.Packet)
      (subscriber : next.mSubscriber = (readerMachine.step process.mSubscriber event).1)
      (imports : next.imports = (importMachine.step process.imports (.receive copy)).1)
      (service : next.mService = process.mService) :
      Does process next {
        acquired := some (event, (readerMachine.step process.mSubscriber event).2)
        imported := some (.receive copy, (importMachine.step process.imports (.receive copy)).2) }

namespace ServiceProcess
variable (process : ServiceProcess)

theorem does_acquire (event : ReaderEvent) :
    process.Does (process.acquire event).1 (process.acquire event).2 := by
  unfold acquire
  simp only
  split
  · rename_i copy _
    exact .reads _ event copy rfl rfl rfl
  · exact .acquires _ event rfl rfl rfl

theorem does_stepMainThread : process.Does process.stepMainThread.1 process.stepMainThread.2 := by
  have moves := process.movesMain
  generalize process.stepMainThread = step, process.mainThread = place at moves
  cases moves with
  | stays | decides | storesKeepRunning | shutsDown => exact .nothing _ rfl rfl rfl
  | stopsSubscriber | notifiesSubscriber | clearsSubscriber => exact .acquires _ .stop rfl rfl rfl
  | stopsService => exact .calls _ .stopServer rfl rfl rfl
  | unsubscribesAll => exact .calls _ .unsubscribeAll rfl rfl rfl

theorem does_stepPropagation : process.Does process.stepPropagation.1 process.stepPropagation.2 := by
  unfold stepPropagation
  cases process.propagateImportPackets with
  | loadsKeepRunning | sleeps | returned => exact .nothing _ rfl rfl rfl
  | pops => exact .imports _ .propagateImportPackets rfl rfl rfl
  | enqueues packet => exact .calls _ (.enqueuePacket packet) rfl rfl rfl

/-- Every step is one of these. -/
theorem does_step (event : ProcessEvent) :
    process.Does (processMachine.step process event).1 (processMachine.step process event).2 := by
  cases event with
  | signal => exact .nothing _ rfl rfl rfl
  | mainThread => exact process.does_stepMainThread
  | propagateImportPackets => exact process.does_stepPropagation
  | acquirePackets => exact process.does_acquire .acquirePackets
  | waitReturns => exact process.does_acquire .waitReturns
  | onReadDone read => exact process.does_acquire (.onReadDone read)
  | stepOnReadDone =>
      simp only [processMachine, stepOnReadDone]
      split
      · exact process.does_acquire .reactor
      · exact .imports _ .addPacketCallback rfl rfl rfl
  | onDone status => exact process.does_acquire (.onDone status)
  | connect call =>
      simp only [processMachine, connect]
      split
      · exact .nothing _ rfl rfl rfl
      · exact .calls _ (.connect call) rfl rfl rfl
  | proceed context => exact .calls _ (.proceed context) rfl rfl rfl
  | reactor context event => exact .calls _ (.reactor context event) rfl rfl rfl

theorem propagateImportPackets_acquire (event : ReaderEvent) :
    (process.acquire event).1.propagateImportPackets = process.propagateImportPackets := by
  unfold acquire
  simp only
  split <;> rfl

theorem propagateImportPackets_stepMainThread :
    process.stepMainThread.1.propagateImportPackets = process.propagateImportPackets := by
  have moves := process.movesMain
  generalize process.stepMainThread = step, process.mainThread = place at moves
  cases moves with
  | stopsSubscriber | notifiesSubscriber | clearsSubscriber =>
      exact process.propagateImportPackets_acquire .stop
  | stays | decides | storesKeepRunning | stopsService | unsubscribesAll | shutsDown => rfl

theorem propagateImportPackets_step {event : ProcessEvent} (other : event ≠ .propagateImportPackets) :
    (processMachine.step process event).1.propagateImportPackets =
      process.propagateImportPackets := by
  cases event with
  | mainThread => exact process.propagateImportPackets_stepMainThread
  | propagateImportPackets => exact absurd rfl other
  | acquirePackets => exact process.propagateImportPackets_acquire _
  | waitReturns => exact process.propagateImportPackets_acquire _
  | onReadDone read => exact process.propagateImportPackets_acquire _
  | stepOnReadDone =>
      simp only [processMachine, stepOnReadDone]
      split
      · exact process.propagateImportPackets_acquire _
      · rfl
  | onDone status => exact process.propagateImportPackets_acquire _
  | connect call =>
      simp only [processMachine, connect]
      split <;> rfl
  | signal | proceed | reactor => rfl

end ServiceProcess

/-- The import queue is a part of the process. -/
theorem process_moves_imports : processMachine.Part importMachine ServiceProcess.imports
    ProcessAction.imported where
  still := by
    intro process event still
    have does := process.does_step event
    generalize (processMachine.step process event).2 = action at does still
    cases does with
    | nothing _ imports | calls _ _ imports | acquires _ _ imports => exact imports
    | imports | reads => cases still
  moves := by
    intro process event move outcome moves
    have does := process.does_step event
    generalize (processMachine.step process event).2 = action at does moves
    cases does with
    | imports _ _ imports | reads _ _ _ imports =>
        obtain ⟨rfl, rfl⟩ := Prod.mk.inj (Option.some.inj moves)
        rw [imports]
    | nothing | calls | acquires => cases moves

theorem process_moves_service : processMachine.Part callMachine ServiceProcess.mService
    (fun action => action.called.map (·, ())) where
  still := by
    intro process event still
    have does := process.does_step event
    generalize (processMachine.step process event).2 = action at does still
    cases does with
    | nothing _ _ service | imports _ _ _ service | acquires _ _ _ service
    | reads _ _ _ _ service => exact service
    | calls => cases still
  moves := by
    intro process event move outcome moves
    have does := process.does_step event
    generalize (processMachine.step process event).2 = action at does moves
    cases does with
    | calls event _ _ service =>
        obtain ⟨rfl, rfl⟩ := Prod.mk.inj (Option.some.inj moves)
        rw [service]
    | nothing | imports | acquires | reads => cases moves

theorem process_moves_subscriber : processMachine.Part readerMachine ServiceProcess.mSubscriber
    ProcessAction.acquired where
  still := by
    intro process event still
    have does := process.does_step event
    generalize (processMachine.step process event).2 = action at does still
    cases does with
    | nothing subscriber | imports _ subscriber | calls _ subscriber => exact subscriber
    | acquires | reads => cases still
  moves := by
    intro process event move outcome moves
    have does := process.does_step event
    generalize (processMachine.step process event).2 = action at does moves
    cases does with
    | acquires _ subscriber | reads _ _ subscriber =>
        obtain ⟨rfl, rfl⟩ := Prod.mk.inj (Option.some.inj moves)
        rw [subscriber]
    | nothing | imports | calls => cases moves

end UDataPacketService
