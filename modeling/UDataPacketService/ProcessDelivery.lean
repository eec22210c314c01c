import UDataPacketService.ProcessModel
import UDataPacketService.ServerDelivery

/-! The way of a packet through the whole process: from the callback of the subscriber
over the import queue and the thread that hands it on to the streams, the queue of a
reactor and `StartWrite`. -/
namespace UDataPacketService

def serverCalls (actions : List ProcessAction) : List CallEvent :=
  actions.filterMap ProcessAction.called

def importOutcomes (actions : List ProcessAction) : List ImportOutcome :=
  (actions.filterMap ProcessAction.imported).map Prod.snd

theorem serverCalls_append (actions further : List ProcessAction) :
    serverCalls (actions ++ further) = serverCalls actions ++ serverCalls further :=
  List.filterMap_append

theorem importOutcomes_append (actions further : List ProcessAction) :
    importOutcomes (actions ++ further) = importOutcomes actions ++ importOutcomes further := by
  rw [importOutcomes, List.filterMap_append, List.map_append]
  rfl

def CallEvent.enqueued : CallEvent → Option Packet
  | .enqueuePacket packet => some packet
  | .connect _ | .proceed _ | .reactor _ _ | .unsubscribeAll | .stopServer => none

/-- The packets that the process has converted and not yet enqueued in the server, the
oldest first. -/
def ServiceProcess.transit (process : ServiceProcess) : List Packet :=
  process.propagateImportPackets.packet.toList ++
    (process.imports.mImportQueue.items ++ process.imports.addPacketCallback.newPacket.toList)

def Packet.goesTo (name : String) (packet : Packet) : Bool :=
  packet.Accepted ∧ packet.toName = name

theorem arrivals_eq (name : String) (event : CallEvent) :
    event.arrivals name = event.enqueued.toList.filter (Packet.goesTo name) := by
  cases event with
  | enqueuePacket packet =>
      change (if packet.Accepted ∧ packet.toName = name then some packet else none).toList =
        [packet].filter (Packet.goesTo name)
      rw [List.filter_singleton, Packet.goesTo, Bool.cond_decide]
      split <;> rfl
  | connect | proceed | reactor | unsubscribeAll | stopServer => rfl

theorem flatMap_arrivals (name : String) (events : List CallEvent) :
    events.flatMap (CallEvent.arrivals name) =
      (events.filterMap CallEvent.enqueued).filter (Packet.goesTo name) := by
  induction events with
  | nil => rfl
  | cons event events ih =>
      rw [List.flatMap_cons, ih, arrivals_eq, List.filterMap_cons]
      cases event.enqueued with
      | none => rfl
      | some packet => exact (List.filter_append [packet] _).symm

/-- What the thread receives is all that the queue gives up exactly if the callback
evicts nothing of it. -/
theorem filter_propagated_eq_iff (goes : Packet → Bool) (outcomes : List ImportOutcome) :
    (propagatedPackets outcomes).filter goes = (poppedPackets outcomes).filter goes ↔
      ∀ packet, .evicted packet ∈ outcomes → goes packet = false := by
  induction outcomes with
  | nil => simp [propagatedPackets, poppedPackets]
  | cons outcome outcomes ih =>
      cases outcome with
      | evicted packet =>
          change (propagatedPackets outcomes).filter goes =
            (packet :: poppedPackets outcomes).filter goes ↔ _
          cases gone : goes packet with
          | true =>
              rw [List.filter_cons_of_pos gone]
              refine iff_of_false (fun same => ?_) (fun none => ?_)
              · have less := ((propagated_sublist_popped outcomes).filter goes).length_le
                rw [same, List.length_cons] at less
                exact absurd less (Nat.not_succ_le_self _)
              · exact absurd (none packet List.mem_cons_self) (by simp [gone])
          | false =>
              rw [List.filter_cons_of_neg (by simp [gone]), ih]
              simp only [List.mem_cons, ImportOutcome.evicted.injEq]
              constructor
              · rintro kept other (rfl | later)
                · exact gone
                · exact kept other later
              · exact fun kept other later => kept other (.inr later)
      | propagated packet =>
          change (packet :: propagatedPackets outcomes).filter goes =
            (packet :: poppedPackets outcomes).filter goes ↔ _
          have tails : (packet :: propagatedPackets outcomes).filter goes =
              (packet :: poppedPackets outcomes).filter goes ↔
              (propagatedPackets outcomes).filter goes = (poppedPackets outcomes).filter goes := by
            rw [List.filter_cons, List.filter_cons]
            split <;> simp
          simpa [tails] using ih
      | nothing | rejected | converted | pushed | notPushed =>
          change (propagatedPackets outcomes).filter goes = (poppedPackets outcomes).filter goes ↔ _
          simpa using ih

/-- Only the `try_pop` of the thread hands it a packet. -/
theorem propagated_of_callback (imports : ImportProcess) {event : ImportEvent}
    (other : event ≠ .propagateImportPackets) :
    propagatedPackets [(importMachine.step imports event).2] = [] := by
  cases event with
  | receive inputPacket =>
      simp only [importMachine, ImportProcess.receive]
      split
      · split <;> rfl
      · rfl
  | addPacketCallback =>
      simp only [importMachine, ImportProcess.stepCallback]
      split
      · rfl
      · split <;> rfl
      · split <;> rfl
      · split <;> rfl
  | propagateImportPackets => exact absurd rfl other

namespace ServiceProcess
variable (process : ServiceProcess)

theorem quiet_acquire (event : ReaderEvent) :
    (process.acquire event).2.called = none ∧
      propagatedPackets (importOutcomes [(process.acquire event).2]) = [] := by
  unfold acquire
  simp only
  split
  · rename_i copy _
    have other : ImportEvent.receive copy ≠ .propagateImportPackets := by simp
    exact ⟨rfl, propagated_of_callback process.imports other⟩
  · exact ⟨rfl, rfl⟩

theorem quiet_stepMainThread : (serverCalls [process.stepMainThread.2]).filterMap CallEvent.enqueued = [] ∧
    propagatedPackets (importOutcomes [process.stepMainThread.2]) = [] := by
  have stops (place : MainThread) :
      (serverCalls [(goTo (process.acquire .stop) place).2]).filterMap CallEvent.enqueued = [] ∧
        propagatedPackets (importOutcomes [(goTo (process.acquire .stop) place).2]) = [] := by
    obtain ⟨called, received⟩ := process.quiet_acquire .stop
    refine ⟨?_, received⟩
    simp only [goTo, serverCalls, List.filterMap_cons, called, List.filterMap_nil]
  have moves := process.movesMain
  generalize process.stepMainThread = step, process.mainThread = place at moves
  cases moves with
  | stopsSubscriber | notifiesSubscriber | clearsSubscriber => exact stops _
  | stays | decides | storesKeepRunning | stopsService | unsubscribesAll | shutsDown =>
      exact ⟨rfl, rfl⟩

theorem quiet_step {event : ProcessEvent} (other : event ≠ .propagateImportPackets) :
    (serverCalls [(processMachine.step process event).2]).filterMap CallEvent.enqueued = [] ∧
      propagatedPackets (importOutcomes [(processMachine.step process event).2]) = [] := by
  have reads (event : ReaderEvent) :
      (serverCalls [(process.acquire event).2]).filterMap CallEvent.enqueued = [] ∧
        propagatedPackets (importOutcomes [(process.acquire event).2]) = [] := by
    obtain ⟨called, received⟩ := process.quiet_acquire event
    refine ⟨?_, received⟩
    simp only [serverCalls, List.filterMap_cons, called, List.filterMap_nil]
  cases event with
  | mainThread => exact process.quiet_stepMainThread
  | propagateImportPackets => exact absurd rfl other
  | acquirePackets => exact reads .acquirePackets
  | waitReturns => exact reads .waitReturns
  | onReadDone read => exact reads (.onReadDone read)
  | stepOnReadDone =>
      simp only [processMachine, stepOnReadDone]
      split
      · exact reads .reactor
      · have other : ImportEvent.addPacketCallback ≠ .propagateImportPackets := by simp
        exact ⟨rfl, propagated_of_callback process.imports other⟩
  | onDone status => exact reads (.onDone status)
  | connect call =>
      simp only [processMachine, connect]
      split <;> exact ⟨rfl, rfl⟩
  | signal | proceed | reactor => exact ⟨rfl, rfl⟩

/-- The thread enqueues what it receives, in order, but for the packet in its hands. -/
theorem handsOn_step (event : ProcessEvent) :
    (serverCalls [(processMachine.step process event).2]).filterMap CallEvent.enqueued ++
        (processMachine.step process event).1.propagateImportPackets.packet.toList =
      process.propagateImportPackets.packet.toList ++
        propagatedPackets (importOutcomes [(processMachine.step process event).2]) := by
  by_cases own : event = .propagateImportPackets
  · subst own
    change (serverCalls [process.stepPropagation.2]).filterMap CallEvent.enqueued ++
      process.stepPropagation.1.propagateImportPackets.packet.toList =
        _ ++ propagatedPackets (importOutcomes [process.stepPropagation.2])
    unfold stepPropagation
    cases place : process.propagateImportPackets with
    | loadsKeepRunning =>
        simp only
        split <;> rfl
    | pops =>
        change _ = [] ++ propagatedPackets [process.imports.propagateImportPackets.2]
        simp only
        split
        · rename_i packet received
          rw [received]
          rfl
        · rename_i nothing
          unfold ImportProcess.propagateImportPackets at nothing ⊢
          split
          · rfl
          · rename_i packet mImportQueue popped
            rw [popped] at nothing
            exact absurd rfl (nothing packet)
    | enqueues packet | sleeps => rfl
    | returned =>
        simp only [place]
        rfl
  · obtain ⟨called, received⟩ := process.quiet_step own
    rw [called, received, process.propagateImportPackets_step own, List.append_nil]
    rfl

theorem handsOn_run (events : List ProcessEvent) :
    (serverCalls (processMachine.trace process events)).filterMap CallEvent.enqueued ++
        (processMachine.run process events).propagateImportPackets.packet.toList =
      process.propagateImportPackets.packet.toList ++
        propagatedPackets (importOutcomes (processMachine.trace process events)) := by
  refine processMachine.history_invariant (fun actions next =>
    (serverCalls actions).filterMap CallEvent.enqueued ++
        next.propagateImportPackets.packet.toList =
      process.propagateImportPackets.packet.toList ++ propagatedPackets (importOutcomes actions))
    (fun actions next event h => ?_)
    (by simp [serverCalls, importOutcomes, propagatedPackets]) events
  rw [serverCalls_append, List.filterMap_append, List.append_assoc, next.handsOn_step,
    ← List.append_assoc, h, importOutcomes_append, propagatedPackets, propagatedPackets,
    propagatedPackets, List.filterMap_append, List.append_assoc]

end ServiceProcess

section Runs
variable (capacity : ℕ) (subscriberOptions : SubscriberOptions) (serverOptions : ServerOptions)
  (streamOptions : StreamOptions)

theorem import_account (positive : 0 < capacity) (events : List ProcessEvent) :
    let start := ServiceProcess.start capacity subscriberOptions serverOptions streamOptions
    ImportAccount capacity (importOutcomes (processMachine.trace start events))
      (processMachine.run start events).imports := by
  intro start
  obtain ⟨last, outcomes⟩ := process_moves_imports.run start events
  rw [importOutcomes, last, ← outcomes]
  exact importMachine.history_invariant (ImportAccount capacity)
    (fun _ _ event h => h.step positive event) (.start capacity) _

/-- What is popped from the queue later, with what is in it then, is what is in it now
and what is converted later. -/
theorem imports_later (positive : 0 < capacity) (before after : List ProcessEvent) :
    let process := processMachine.run
      (.start capacity subscriberOptions serverOptions streamOptions) before
    let last := processMachine.run process after
    let outcomes := importOutcomes (processMachine.trace process after)
    poppedPackets outcomes ++
        (last.imports.mImportQueue.items ++ last.imports.addPacketCallback.newPacket.toList) =
      process.imports.mImportQueue.items ++ process.imports.addPacketCallback.newPacket.toList ++
        convertedPackets outcomes := by
  intro process last outcomes
  have earlier := (import_account capacity subscriberOptions serverOptions streamOptions positive
    before).packets
  have all := (import_account capacity subscriberOptions serverOptions streamOptions positive
    (before ++ after)).packets
  rw [processMachine.trace_append, processMachine.run_append, importOutcomes_append, poppedPackets,
    convertedPackets, List.filterMap_append, List.filterMap_append, List.append_assoc,
    List.append_assoc] at all
  refine List.append_cancel_left (all.trans ?_)
  rw [← List.append_assoc, ← List.append_assoc]
  exact congrArg (· ++ convertedPackets outcomes) earlier.symm

theorem service_later (process : ServiceProcess) (events : List ProcessEvent) :
    (processMachine.run process events).mService =
      callMachine.run process.mService (serverCalls (processMachine.trace process events)) := by
  have calls (actions : List ProcessAction) :
      (actions.filterMap (fun action => action.called.map (·, ()))).map Prod.fst =
        serverCalls actions := by
    rw [List.map_filterMap, serverCalls]
    congr 1
    funext action
    cases action.called <;> rfl
  rw [(process_moves_service.run process events).1, calls]

theorem service_regular (events : List ProcessEvent) :
    (processMachine.run (.start capacity subscriberOptions serverOptions streamOptions)
      events).mService.Regular := by
  rw [service_later]
  exact BusyServer.run_regular serverOptions streamOptions _

/-- Of what is in transit or converted later, a run enqueues all or has it in transit at
the end, but for what the callback evicts. -/
theorem transit_later (positive : 0 < capacity) (goes : Packet → Bool)
    (before after : List ProcessEvent) :
    let process := processMachine.run
      (.start capacity subscriberOptions serverOptions streamOptions) before
    let actions := processMachine.trace process after
    let left := (serverCalls actions).filterMap CallEvent.enqueued ++
      (processMachine.run process after).transit
    let all := process.transit ++ convertedPackets (importOutcomes actions)
    (left.filter goes).Sublist (all.filter goes) ∧
      (left.filter goes = all.filter goes ↔
        ∀ packet, .evicted packet ∈ importOutcomes actions → goes packet = false) := by
  intro process actions left all
  have queue := imports_later capacity subscriberOptions serverOptions streamOptions positive before
    after
  have hand := process.handsOn_run after
  have left_eq : left = process.propagateImportPackets.packet.toList ++
      (propagatedPackets (importOutcomes actions) ++
        ((processMachine.run process after).imports.mImportQueue.items ++
          (processMachine.run process after).imports.addPacketCallback.newPacket.toList)) := by
    rw [← List.append_assoc, ← hand, List.append_assoc]
    rfl
  have all_eq : all = process.propagateImportPackets.packet.toList ++
      (poppedPackets (importOutcomes actions) ++
        ((processMachine.run process after).imports.mImportQueue.items ++
          (processMachine.run process after).imports.addPacketCallback.newPacket.toList)) := by
    rw [queue, ← List.append_assoc]
    rfl
  rw [left_eq, all_eq]
  simp only [List.filter_append]
  constructor
  · exact (((propagated_sublist_popped _).filter goes).append_right _).append_left _
  · rw [List.append_cancel_left_eq, List.append_cancel_right_eq]
    exact filter_propagated_eq_iff goes _

end Runs

def connectingProcess : List ProcessEvent :=
  [.connect { context := 1, request := .subscribeToAll }, .proceed 1, .proceed 1, .proceed 1,
    .proceed 1, .acquirePackets, .acquirePackets, .acquirePackets]

def passedPacket : List ProcessEvent :=
  [.onReadDone (some importedPacket), .stepOnReadDone, .stepOnReadDone, .stepOnReadDone,
    .propagateImportPackets, .propagateImportPackets, .propagateImportPackets, .reactor 1 .pass,
    .reactor 1 .pass]

/-- While its reactor lives, a client misses nothing of a stream, from the converter to
`StartWrite`, exactly if the callback evicts no packet of the stream from the import
queue and no step of the server loses one. -/
theorem process_misses_what_is_lost (capacity : ℕ) (positive : 0 < capacity)
    (subscriberOptions : SubscriberOptions) (serverOptions : ServerOptions)
    (streamOptions : StreamOptions) (before after : List ProcessEvent) (c : ContextAddress)
    (name : String)
    (there : (processMachine.run (.start capacity subscriberOptions serverOptions streamOptions)
      before).mService.server.reactors c ≠ none)
    (alive : callMachine.Admissible (BusyServer.Survives c)
      (processMachine.run (.start capacity subscriberOptions serverOptions streamOptions)
        before).mService
      (serverCalls (processMachine.trace
        (processMachine.run (.start capacity subscriberOptions serverOptions streamOptions) before)
        after))) :
    let process := processMachine.run
      (.start capacity subscriberOptions serverOptions streamOptions) before
    let last := processMachine.run process after
    let actions := processMachine.trace process after
    BusyServer.heldBy c name last.mService ++ last.transit.filter (Packet.goesTo name) =
        BusyServer.heldBy c name process.mService ++
          (process.transit ++ convertedPackets (importOutcomes actions)).filter
            (Packet.goesTo name) ↔
      callMachine.Admissible (BusyServer.Keeps c name) process.mService (serverCalls actions) ∧
        ∀ packet, .evicted packet ∈ importOutcomes actions → packet.goesTo name = false := by
  intro process last actions
  have regular := service_regular capacity subscriberOptions serverOptions streamOptions before
  have received := (BusyServer.carries_live name c).run_sublist ⟨regular, there⟩ alive
  have kept := (BusyServer.carries_live name c).run_eq_iff (K := BusyServer.Keeps c name) ?_
    ⟨regular, there⟩ alive
  · rw [← service_later, flatMap_arrivals] at received kept
    obtain ⟨handed, evicted⟩ := transit_later capacity subscriberOptions serverOptions
      streamOptions positive (Packet.goesTo name) before after
    rw [List.filter_append] at handed evicted
    -- the server and the import queue are the two places of loss
    rw [LossyRuns.sublist_eq_iff (received.append_right _)
        (by rw [List.append_assoc]; exact handed.append_left _),
      List.append_cancel_right_eq, kept, List.append_assoc, List.append_cancel_left_eq, evicted]
  · rintro now event ⟨regular, live⟩ left
    obtain ⟨reactor, found⟩ := Option.ne_none_iff_exists'.mp live
    exact (regular.heldBy_step name found event left).2

theorem process_misses_what_is_lost_once :
    let process := processMachine.run (.start 1 {} {} {}) connectingProcess
    let last := processMachine.run process passedPacket
    let actions := processMachine.trace process passedPacket
    BusyServer.heldBy 1 convertedPacket.toName last.mService ++
        last.transit.filter (Packet.goesTo convertedPacket.toName) =
      BusyServer.heldBy 1 convertedPacket.toName process.mService ++
        (process.transit ++ convertedPackets (importOutcomes actions)).filter
          (Packet.goesTo convertedPacket.toName) := by
  refine (process_misses_what_is_lost 1 Nat.one_pos {} {} {} connectingProcess passedPacket 1
    convertedPacket.toName (by decide +kernel) (by decide +kernel)).mpr ⟨by decide +kernel, ?_⟩
  have room : ∀ outcome ∈ importOutcomes (processMachine.trace (processMachine.run
      (.start 1 {} {} {}) connectingProcess) passedPacket),
      (outcome matches .evicted _) = false := by
    decide +kernel
  exact fun packet evicted => Bool.noConfusion (room _ evicted)

end UDataPacketService
