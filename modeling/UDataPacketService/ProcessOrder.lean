import UDataPacketService.ProcessModel
import UDataPacketService.ServerShutdown
import UDataPacketService.ReaderShutdown

/-! The order in which the main thread stops the process, over every run: why it leaves
its loop, what is off and who is done at each place of `stop`. -/
namespace UDataPacketService

/-- How many statements of `stop` the main thread has behind it. -/
def MainThread.stage : MainThread → ℕ
  | .testsInterrupted | .checksPropagation | .checksAcquisition _ | .waits
  | .storesKeepRunning => 0
  | .stopsSubscriber => 1
  | .notifiesSubscriber => 2
  | .clearsSubscriber => 3
  | .stopsService => 4
  | .unsubscribesAll => 5
  | .shutsDown => 6
  | .waitsForReactors => 7
  | .getsPropagation => 8
  | .getsAcquisition => 9
  | .returned | .threw _ => 10

def MainThread.Loops : MainThread → Prop
  | .testsInterrupted | .checksPropagation | .checksAcquisition _ | .waits => True
  | _ => False

/-- Where the `stop` of the subscriber is that the main thread calls. -/
def MainThread.stopCall : MainThread → StopCall
  | .notifiesSubscriber => .assignedShutdownRequested
  | .clearsSubscriber => .notified
  | _ => .storedKeepRunning

/-- A step of another thread leaves the main thread and what it owns alone. -/
structure ServiceProcess.SameMain (process next : ServiceProcess) : Prop where
  mainThread : next.mainThread = process.mainThread
  mKeepRunning : next.mKeepRunning = process.mKeepRunning
  propagation : next.propagation = process.propagation
  acquisition : next.acquisition = process.acquisition
  shutdown : next.shutdown = process.shutdown
  interrupted : process.mInterrupted = true → next.mInterrupted = true

namespace ServiceProcess
variable (process : ServiceProcess)

theorem sameMain_acquire (event : ReaderEvent) : process.SameMain (process.acquire event).1 := by
  unfold acquire
  simp only
  split <;> exact ⟨rfl, rfl, rfl, rfl, rfl, id⟩

theorem sameMain_step {event : ProcessEvent} (other : event ≠ .mainThread) :
    process.SameMain (processMachine.step process event).1 := by
  cases event with
  | mainThread => exact absurd rfl other
  | signal => exact ⟨rfl, rfl, rfl, rfl, rfl, fun _ => rfl⟩
  | propagateImportPackets =>
      simp only [processMachine, stepPropagation]
      split <;> exact ⟨rfl, rfl, rfl, rfl, rfl, id⟩
  | acquirePackets => exact process.sameMain_acquire _
  | waitReturns => exact process.sameMain_acquire _
  | onReadDone read => exact process.sameMain_acquire _
  | stepOnReadDone =>
      simp only [processMachine, stepOnReadDone]
      split
      · exact process.sameMain_acquire _
      · exact ⟨rfl, rfl, rfl, rfl, rfl, id⟩
  | onDone status => exact process.sameMain_acquire _
  | connect call =>
      simp only [processMachine, connect]
      split <;> exact ⟨rfl, rfl, rfl, rfl, rfl, id⟩
  | proceed | reactor => exact ⟨rfl, rfl, rfl, rfl, rfl, id⟩

/-- The calls of the server that other threads make do not stop it, and their steps of
the subscriber are none of its `stop`. -/
theorem sameFlags_acquire {event : ReaderEvent} (other : event ≠ .stop) :
    (process.acquire event).1.mSubscriber.impl.mKeepRunning =
        process.mSubscriber.impl.mKeepRunning ∧
      (process.acquire event).1.mSubscriber.impl.stop = process.mSubscriber.impl.stop := by
  unfold acquire
  simp only
  split <;> exact readerMachine_flags process.mSubscriber other

theorem sameFlags_step {event : ProcessEvent} (other : event ≠ .mainThread) :
    (processMachine.step process event).1.mSubscriber.impl.mKeepRunning =
        process.mSubscriber.impl.mKeepRunning ∧
      (processMachine.step process event).1.mSubscriber.impl.stop =
        process.mSubscriber.impl.stop := by
  cases event with
  | mainThread => exact absurd rfl other
  | propagateImportPackets =>
      simp only [processMachine, stepPropagation]
      split <;> exact ⟨rfl, rfl⟩
  | acquirePackets => exact process.sameFlags_acquire (by simp)
  | waitReturns => exact process.sameFlags_acquire (by simp)
  | onReadDone read => exact process.sameFlags_acquire (by simp)
  | stepOnReadDone =>
      simp only [processMachine, stepOnReadDone]
      split
      · exact process.sameFlags_acquire (by simp)
      · exact ⟨rfl, rfl⟩
  | onDone status => exact process.sameFlags_acquire (by simp)
  | connect call =>
      simp only [processMachine, connect]
      split <;> exact ⟨rfl, rfl⟩
  | signal | proceed | reactor => exact ⟨rfl, rfl⟩

theorem stopped_step {process : ServiceProcess} (stopped : process.mService.Stopped)
    (event : ProcessEvent) : (processMachine.step process event).1.mService.Stopped :=
  process_moves_service.invariant BusyServer.Stopped (fun _ event h => h.step event) stopped event

/-- A decision of the main thread is one in its loop, or takes it to the next statement
behind `Shutdown`. -/
theorem Decides.stage {process : ServiceProcess} {place next : MainThread}
    {propagation acquisition : Bool} (decision : process.Decides place next propagation acquisition) :
    (place.Loops ∧ place.stage = 0 ∧ next.stage = 0) ∨
      (7 ≤ place.stage ∧ next.stage = place.stage + 1) := by
  cases decision with
  | checksAcquisition =>
      refine .inl ⟨trivial, rfl, ?_⟩
      split <;> rfl
  | interrupted | goesOn | checksPropagation | waits => exact .inl ⟨trivial, rfl, rfl⟩
  | drains | getsPropagation | skipsPropagation | getsAcquisition | throws | skipsAcquisition =>
      exact .inr ⟨by decide, rfl⟩

theorem Blocked.stage {process : ServiceProcess} {place : MainThread}
    (blocked : process.Blocked place) : 7 ≤ place.stage := by
  cases place with
  | waitsForReactors => exact le_rfl
  | getsPropagation => exact Nat.le_succ 7
  | getsAcquisition => exact Nat.le_add_right 7 2
  | returned | threw => exact Nat.le_add_right 7 3
  | testsInterrupted | checksPropagation | checksAcquisition | waits | storesKeepRunning
  | stopsSubscriber | notifiesSubscriber | clearsSubscriber | stopsService | unsubscribesAll
  | shutsDown => exact absurd blocked id

theorem Decides.stopCall {process : ServiceProcess} {place next : MainThread}
    {propagation acquisition : Bool} (decision : process.Decides place next propagation acquisition) :
    next.stopCall = place.stopCall := by
  cases decision with
  | checksAcquisition => split <;> rfl
  | interrupted | goesOn | checksPropagation | waits | drains | getsPropagation
  | skipsPropagation | getsAcquisition | throws | skipsAcquisition => rfl

/-- What is off at each place of the main thread. -/
structure Flags (process : ServiceProcess) : Prop where
  keepRunning : process.mKeepRunning = false ↔ 1 ≤ process.mainThread.stage
  subscriber : process.mSubscriber.impl.mKeepRunning = false ↔ 4 ≤ process.mainThread.stage
  stopCall : process.mSubscriber.impl.stop = process.mainThread.stopCall
  service : 5 ≤ process.mainThread.stage → process.mService.Stopped
  shutdown : 7 ≤ process.mainThread.stage → process.shutdown = true

namespace Flags
variable {process : ServiceProcess}

theorem of_place (place : MainThread) (here : process.mainThread = place)
    (keepRunning : process.mKeepRunning = false ↔ 1 ≤ place.stage)
    (subscriber : process.mSubscriber.impl.mKeepRunning = false ↔ 4 ≤ place.stage)
    (stopCall : process.mSubscriber.impl.stop = place.stopCall)
    (service : 5 ≤ place.stage → process.mService.Stopped)
    (shutdown : 7 ≤ place.stage → process.shutdown = true) : process.Flags := by
  subst here
  exact ⟨keepRunning, subscriber, stopCall, service, shutdown⟩

theorem start (capacity : ℕ) (subscriberOptions : SubscriberOptions)
    (serverOptions : ServerOptions) (streamOptions : StreamOptions) :
    Flags (.start capacity subscriberOptions serverOptions streamOptions) :=
  of_place .testsInterrupted rfl (iff_of_false Bool.noConfusion (by decide))
    (iff_of_false Bool.noConfusion (by decide)) rfl (fun early => absurd early (by decide))
    (fun early => absurd early (by decide))

theorem off (h : process.Flags) {place : MainThread} (here : process.mainThread = place) :
    (process.mKeepRunning = false ↔ 1 ≤ place.stage) ∧
      (process.mSubscriber.impl.mKeepRunning = false ↔ 4 ≤ place.stage) ∧
      process.mSubscriber.impl.stop = place.stopCall ∧
      (5 ≤ place.stage → process.mService.Stopped) ∧
      (7 ≤ place.stage → process.shutdown = true) := by
  subst here
  exact ⟨h.keepRunning, h.subscriber, h.stopCall, h.service, h.shutdown⟩

theorem of_stop (place : MainThread) {next : SubscriberImpl}
    (statement : process.mSubscriber.impl.stepStop = next) (off : process.mKeepRunning = false)
    (stage : 1 ≤ place.stage ∧ place.stage < 5)
    (subscriber : next.mKeepRunning = false ↔ 4 ≤ place.stage)
    (stopCall : next.stop = place.stopCall) :
    (goTo (process.acquire .stop) place).1.Flags := by
  subst statement
  have same := process.sameMain_acquire .stop
  exact of_place place rfl (iff_of_true (same.mKeepRunning.trans off) stage.1) subscriber stopCall
    (fun late => by omega) (fun late => by omega)

theorem stepMainThread (h : process.Flags) : process.stepMainThread.1.Flags := by
  have moves := process.movesMain
  generalize process.stepMainThread = step at moves
  generalize here : process.mainThread = place at moves
  obtain ⟨keepRunning, subscriber, call, service, shutdown⟩ := h.off here
  cases moves with
  | stays => exact h
  | @decides _ next _ _ decision =>
      have stage := decision.stage
      exact of_place next rfl (keepRunning.trans (by omega)) (subscriber.trans (by omega))
        (call.trans decision.stopCall.symm) (fun late => service (by omega))
        (fun late => shutdown (by omega))
  | storesKeepRunning =>
      exact of_place .stopsSubscriber rfl (iff_of_true rfl (by decide))
        (subscriber.trans (by decide)) call (fun late => absurd late (by decide))
        (fun late => absurd late (by decide))
  | stopsSubscriber =>
      have statement : process.mSubscriber.impl.stepStop = { process.mSubscriber.impl with
          mShutdownRequested := true, stop := .assignedShutdownRequested } := by
        simp only [SubscriberImpl.stepStop, call, MainThread.stopCall]
      exact of_stop .notifiesSubscriber statement (keepRunning.mpr (by decide)) (by decide)
        (subscriber.trans (by decide)) rfl
  | notifiesSubscriber =>
      have statement : process.mSubscriber.impl.stepStop = { process.mSubscriber.impl with
          stop := .notified } := by
        simp only [SubscriberImpl.stepStop, call, MainThread.stopCall]
      exact of_stop .clearsSubscriber statement (keepRunning.mpr (by decide)) (by decide)
        (subscriber.trans (by decide)) rfl
  | clearsSubscriber =>
      have statement : process.mSubscriber.impl.stepStop = { process.mSubscriber.impl with
          mKeepRunning := false, stop := .storedKeepRunning } := by
        simp only [SubscriberImpl.stepStop, call, MainThread.stopCall]
      exact of_stop .stopsService statement (keepRunning.mpr (by decide)) (by decide)
        (iff_of_true rfl (by decide)) rfl
  | stopsService =>
      exact of_place .unsubscribesAll rfl (keepRunning.trans (by decide))
        (subscriber.trans (by decide)) call (fun _ => rfl) (fun late => absurd late (by decide))
  | unsubscribesAll =>
      exact of_place .shutsDown rfl (keepRunning.trans (by decide)) (subscriber.trans (by decide))
        call (fun _ => (service (by decide)).step .unsubscribeAll)
        (fun late => absurd late (by decide))
  | shutsDown =>
      exact of_place .waitsForReactors rfl (keepRunning.trans (by decide))
        (subscriber.trans (by decide)) call (fun _ => service (by decide)) (fun _ => rfl)

theorem step (h : process.Flags) (event : ProcessEvent) :
    (processMachine.step process event).1.Flags := by
  by_cases main : event = .mainThread
  · exact main ▸ h.stepMainThread
  · have same := process.sameMain_step main
    obtain ⟨running, call⟩ := process.sameFlags_step main
    exact {
      keepRunning := by rw [same.mKeepRunning, same.mainThread, h.keepRunning]
      subscriber := by rw [running, same.mainThread, h.subscriber]
      stopCall := by rw [call, same.mainThread, h.stopCall]
      service := fun late => stopped_step (h.service (same.mainThread ▸ late)) event
      shutdown := fun late => same.shutdown.trans (h.shutdown (same.mainThread ▸ late)) }

end Flags

end ServiceProcess

theorem ended_subscriberMachine {subscriber : SubscriberImpl} {place : AcquirePackets}
    (ended : place.Ended) (here : subscriber.acquirePackets = place) (event : SubscriberEvent) :
    (subscriberMachine.step subscriber event).1.acquirePackets = place := by
  rcases subscriberMachine_step subscriber event with ⟨-, step⟩ | ⟨next, action, moves, step⟩
  · rw [step]
    exact (stepStop_cases subscriber).2.1.trans here
  · rw [step]
    rw [here] at moves
    cases moves with
    | stays => rfl
    | entersLoop | exhausts | breaksBeforeWait | leavesSchedule | waits | goesFirst | wakes
    | breaksAfterWait | goesAgain | connects | cancels | finishes | missesServer | fails
    | breaksAfterRPC | goesOn | throws | returns => exact absurd ended id

/-- The thread returns only when it should not run. -/
def SubscriberImpl.Quits (subscriber : SubscriberImpl) : Prop :=
  subscriber.acquirePackets = .returned → subscriber.mKeepRunning = false

theorem SubscriberImpl.Quits.step {subscriber : SubscriberImpl} (h : subscriber.Quits)
    (event : SubscriberEvent) : (subscriberMachine.step subscriber event).1.Quits := by
  rcases subscriberMachine_step subscriber event with ⟨-, step⟩ | ⟨next, action, moves, step⟩
  · obtain ⟨-, same, still⟩ := stepStop_cases subscriber
    rw [step]
    exact fun returned => still (h (same.symm.trans returned))
  · rw [step]
    intro returned
    change next = .returned at returned
    change subscriber.mKeepRunning = false
    subst returned
    generalize here : subscriber.acquirePackets = place at moves
    cases moves with
    | stays => exact h here
    | returns off => exact off

namespace ServiceProcess
variable {process : ServiceProcess}

theorem impl_invariant (I : SubscriberImpl → Prop)
    (keep : ∀ subscriber event, I subscriber → I (subscriberMachine.step subscriber event).1)
    (now : I process.mSubscriber.impl) (event : ProcessEvent) :
    I (processMachine.step process event).1.mSubscriber.impl :=
  process_moves_subscriber.invariant (fun thread => I thread.impl)
    (fun _ event now => reader_moves_subscriber.invariant I keep now event) now event

theorem ended_of_acquisitionEnd {result : Option AcquisitionFailure}
    (ended : process.acquisitionEnd = some result) : process.mSubscriber.Ended := by
  unfold acquisitionEnd at ended
  unfold SubscriberThread.Ended
  cases place : process.mSubscriber.impl.acquirePackets with
  | returned | threw | outOfRange => trivial
  | testsLoop | loadsBeforeWait | waits | loadsAfterWait | connects | awaits | loadsAfterRPC
  | loadsAfterLoop =>
      rw [place] at ended
      cases ended

theorem acquisitionEnd_of_ended (ended : process.mSubscriber.Ended) :
    ∃ result, process.acquisitionEnd = some result := by
  unfold acquisitionEnd
  unfold SubscriberThread.Ended at ended
  cases place : process.mSubscriber.impl.acquirePackets with
  | returned => exact ⟨_, rfl⟩
  | threw what => exact ⟨_, rfl⟩
  | outOfRange => exact ⟨_, rfl⟩
  | testsLoop | loadsBeforeWait | waits | loadsAfterWait | connects | awaits | loadsAfterRPC
  | loadsAfterLoop =>
      rw [place] at ended
      exact absurd ended id

theorem acquisitionEnd_step {result : Option AcquisitionFailure}
    (ended : process.acquisitionEnd = some result) (event : ProcessEvent) :
    (processMachine.step process event).1.acquisitionEnd = some result := by
  have done := ended_of_acquisitionEnd ended
  have same := impl_invariant
    (fun impl => impl.acquirePackets = process.mSubscriber.impl.acquirePackets)
    (fun _ event here => ended_subscriberMachine done here event) rfl event
  unfold acquisitionEnd at ended ⊢
  rw [same]
  exact ended

/-- A call is only taken before `Shutdown`. -/
theorem called_connect {event : ProcessEvent} {call : IncomingCall}
    (called : (processMachine.step process event).2.called = some (.connect call)) :
    event = .connect call ∧ process.shutdown = false := by
  have acquire (read : ReaderEvent) : (process.acquire read).2.called = none := by
    unfold acquire
    simp only
    split <;> rfl
  cases event with
  | connect incoming =>
      simp only [processMachine, ServiceProcess.connect] at called
      split at called
      · cases called
      · cases called
        exact ⟨rfl, Bool.eq_false_iff.mpr ‹_›⟩
  | mainThread =>
      have moves := process.movesMain
      change process.stepMainThread.2.called = _ at called
      generalize process.stepMainThread = step, process.mainThread = place at moves called
      cases moves with
      | stopsSubscriber | notifiesSubscriber | clearsSubscriber =>
          cases (acquire .stop).symm.trans called
      | stays | decides | storesKeepRunning | stopsService | unsubscribesAll | shutsDown =>
          cases called
  | propagateImportPackets =>
      simp only [processMachine, stepPropagation] at called
      split at called <;> cases called
  | stepOnReadDone =>
      simp only [processMachine, stepOnReadDone] at called
      split at called
      · cases (acquire _).symm.trans called
      · cases called
  | acquirePackets => cases (acquire .acquirePackets).symm.trans called
  | waitReturns => cases (acquire .waitReturns).symm.trans called
  | onReadDone read => cases (acquire (.onReadDone read)).symm.trans called
  | onDone status => cases (acquire (.onDone status)).symm.trans called
  | signal | proceed | reactor => cases called

theorem gone_step {c : ContextAddress} (gone : process.mService.server.reactors c = none)
    {event : ProcessEvent} (once : process.shutdown = false → ∀ call, event = .connect call →
      call.context ≠ c) :
    (processMachine.step process event).1.mService.server.reactors c = none := by
  cases move : (processMachine.step process event).2.called with
  | none => rw [process_moves_service.still process event (by rw [move]; rfl), gone]
  | some called =>
      have step := process_moves_service.moves process event called () (by rw [move]; rfl)
      have kept : (callMachine.step process.mService called).1.server.reactors c = none := by
        refine BusyServer.none_step gone (fun call connects => ?_)
        subst connects
        obtain ⟨incoming, open_⟩ := called_connect move
        exact once open_ call incoming
      rwa [step] at kept

theorem same_stepMainThread (process : ServiceProcess) :
    process.stepMainThread.1.mInterrupted = process.mInterrupted ∧
      process.stepMainThread.1.calls = process.calls := by
  have acquire : (process.acquire .stop).1.mInterrupted = process.mInterrupted ∧
      (process.acquire .stop).1.calls = process.calls := by
    unfold ServiceProcess.acquire
    simp only
    split <;> exact ⟨rfl, rfl⟩
  have moves := process.movesMain
  generalize process.stepMainThread = step, process.mainThread = place at moves
  cases moves with
  | stopsSubscriber | notifiesSubscriber | clearsSubscriber => exact acquire
  | stays | decides | storesKeepRunning | stopsService | unsubscribesAll | shutsDown =>
      exact ⟨rfl, rfl⟩

theorem interrupted_step (interrupted : process.mInterrupted = true) (event : ProcessEvent) :
    (processMachine.step process event).1.mInterrupted = true := by
  by_cases main : event = .mainThread
  · subst main
    exact process.same_stepMainThread.1.trans interrupted
  · exact (process.sameMain_step main).interrupted interrupted

theorem keepRunning_step (off : process.mKeepRunning = false) (event : ProcessEvent) :
    (processMachine.step process event).1.mKeepRunning = false := by
  by_cases main : event = .mainThread
  · subst main
    change process.stepMainThread.1.mKeepRunning = false
    have moves := process.movesMain
    generalize process.stepMainThread = step, process.mainThread = place at moves
    cases moves with
    | stopsSubscriber | notifiesSubscriber | clearsSubscriber =>
        exact (process.sameMain_acquire .stop).mKeepRunning.trans off
    | storesKeepRunning => rfl
    | stays | decides | stopsService | unsubscribesAll | shutsDown => exact off
  · exact (process.sameMain_step main).mKeepRunning.trans off

theorem returned_step (returned : process.propagateImportPackets = .returned)
    (event : ProcessEvent) :
    (processMachine.step process event).1.propagateImportPackets = .returned := by
  by_cases own : event = .propagateImportPackets
  · subst own
    simp only [processMachine, stepPropagation, returned]
  · exact (process.propagateImportPackets_step own).trans returned

/-- Which results of the other threads the main thread has waited for and taken. -/
structure Takes (process : ServiceProcess) : Prop where
  drained : 8 ≤ process.mainThread.stage → ∀ c, process.mService.server.reactors c = none
  propagation : process.propagation = false ↔ 9 ≤ process.mainThread.stage
  propagated : 9 ≤ process.mainThread.stage → process.propagateImportPackets = .returned
  taken : 10 ≤ process.mainThread.stage → process.acquisition = false

/-- A result exists when it is taken, and the server has the reactors that it was given. -/
structure Joins (process : ServiceProcess) : Prop extends Takes process where
  known : ∀ c, process.mService.server.reactors c ≠ none → c ∈ process.calls
  returns : process.propagateImportPackets = .returned → process.mKeepRunning = false
  acquired : process.acquisition = false → process.acquisitionEnd ≠ none

theorem Takes.of_place (place : MainThread) (here : process.mainThread = place)
    (drained : 8 ≤ place.stage → ∀ c, process.mService.server.reactors c = none)
    (propagation : process.propagation = false ↔ 9 ≤ place.stage)
    (propagated : 9 ≤ place.stage → process.propagateImportPackets = .returned)
    (taken : 10 ≤ place.stage → process.acquisition = false) : process.Takes := by
  subst here
  exact ⟨drained, propagation, propagated, taken⟩

namespace Joins

theorem start (capacity : ℕ) (subscriberOptions : SubscriberOptions)
    (serverOptions : ServerOptions) (streamOptions : StreamOptions) :
    Joins (.start capacity subscriberOptions serverOptions streamOptions) where
  known := fun _ live => absurd rfl live
  drained := fun late => absurd late (by simp [ServiceProcess.start, MainThread.stage])
  propagation := by simp [ServiceProcess.start, MainThread.stage]
  propagated := fun late => absurd late (by simp [ServiceProcess.start, MainThread.stage])
  returns := fun returned => by cases returned
  acquired := fun taken => by cases taken
  taken := fun late => absurd late (by simp [ServiceProcess.start, MainThread.stage])

theorem known_step (h : process.Joins) (event : ProcessEvent) (c : ContextAddress)
    (live : (processMachine.step process event).1.mService.server.reactors c ≠ none) :
    c ∈ (processMachine.step process event).1.calls := by
  have before : c ∈ process.calls ∨
      ∃ call, event = .connect call ∧ process.shutdown = false ∧ call.context = c := by
    by_contra other
    push Not at other
    refine live (gone_step ?_ fun open_ call connects => other.2 call connects open_)
    by_contra there
    exact other.1 (h.known c there)
  rcases before with before | ⟨call, rfl, open_, rfl⟩
  · cases event with
    | connect call =>
        simp only [processMachine, connect]
        split
        · exact before
        · exact List.mem_cons_of_mem _ before
    | mainThread => exact process.same_stepMainThread.2 ▸ before
    | propagateImportPackets =>
        simp only [processMachine, stepPropagation]
        split <;> exact before
    | acquirePackets | waitReturns | onReadDone | onDone =>
        simp only [processMachine, acquire]
        split <;> exact before
    | stepOnReadDone =>
        simp only [processMachine, stepOnReadDone, acquire]
        repeat' split
        all_goals exact before
    | signal | proceed | reactor => exact before
  · simp only [processMachine, connect, open_]
    exact List.mem_cons_self

theorem returns_step (h : process.Joins) (event : ProcessEvent)
    (returned : (processMachine.step process event).1.propagateImportPackets = .returned) :
    (processMachine.step process event).1.mKeepRunning = false := by
  refine keepRunning_step ?_ event
  by_cases own : event = .propagateImportPackets
  · subst own
    simp only [processMachine, stepPropagation] at returned
    split at returned
    · split at returned
      · cases returned
      · exact Bool.eq_false_iff.mpr ‹_›
    · split at returned <;> cases returned
    · cases returned
    · cases returned
    · exact h.returns ‹_›
  · exact h.returns ((process.propagateImportPackets_step own).symm.trans returned)

theorem acquisition_stepMainThread (running : process.acquisitionEnd = none) :
    process.stepMainThread.1.acquisition = process.acquisition := by
  have moves := process.movesMain
  generalize process.stepMainThread = step, process.mainThread = place at moves
  cases moves with
  | stopsSubscriber | notifiesSubscriber | clearsSubscriber =>
      exact (process.sameMain_acquire .stop).acquisition
  | stays | storesKeepRunning | stopsService | unsubscribesAll | shutsDown => rfl
  | decides decision =>
      cases decision with
      | checksAcquisition checked =>
          rw [running] at checked
          refine (congrArg Prod.fst checked).symm.trans ?_
          rw [checkFuture]
          split <;> rfl
      | getsAcquisition _ ended | throws _ ended => cases running.symm.trans ended
      | interrupted | goesOn | checksPropagation | waits | drains | getsPropagation
      | skipsPropagation | skipsAcquisition => rfl

theorem acquired_step (h : process.Joins) (event : ProcessEvent)
    (taken : (processMachine.step process event).1.acquisition = false) :
    (processMachine.step process event).1.acquisitionEnd ≠ none := by
  have before : process.acquisitionEnd ≠ none := by
    intro running
    by_cases main : event = .mainThread
    · subst main
      exact h.acquired ((acquisition_stepMainThread running).symm.trans taken) running
    · exact h.acquired ((process.sameMain_step main).acquisition.symm.trans taken) running
  obtain ⟨result, ended⟩ := Option.ne_none_iff_exists'.mp before
  rw [acquisitionEnd_step ended event]
  exact Option.some_ne_none result

/-- Before the main thread is at the futures, no reactor need be gone and none is taken. -/
theorem early (h : process.Joins) {place : MainThread} (here : process.mainThread = place)
    {next : ServiceProcess} (place' : MainThread) (there : next.mainThread = place')
    (stages : place.stage < 8 ∧ place'.stage < 8)
    (propagation : next.propagation = process.propagation) : next.Takes := by
  subst here there
  have valid := h.propagation
  rw [← propagation] at valid
  exact {
    drained := fun late => by omega
    propagation := by
      rw [valid]
      omega
    propagated := fun late => by omega
    taken := fun late => by omega }

theorem through (h : process.Joins) (here : process.mainThread = .getsAcquisition)
    {acquisition : Bool} (place : MainThread) (stage : place.stage = 10)
    (taken : acquisition = false) :
    Takes { process with mainThread := place, acquisition := acquisition } := by
  have late : 9 ≤ process.mainThread.stage := by
    rw [here]
    decide
  exact .of_place place rfl (fun _ => h.drained (by omega))
    (iff_of_true (h.propagation.mpr late) (by omega)) (fun _ => h.propagated late) (fun _ => taken)

theorem valid_propagation (h : process.Joins) (early : process.mainThread.stage < 9) :
    process.propagation = true := by
  by_contra off
  have late := h.propagation.mp (Bool.eq_false_iff.mpr off)
  omega

/-- The thread that hands the packets on does not end in the loop. -/
theorem checks_propagation (h : process.Joins) (flags : process.Flags)
    (early : process.mainThread.stage < 1) :
    checkFuture process.propagation (process.propagateImportPackets == .returned) false =
      (true, true) := by
  have runs : (process.propagateImportPackets == .returned) = false := by
    rw [beq_eq_false_iff_ne]
    intro returned
    have := flags.keepRunning.mp (h.returns returned)
    omega
  rw [h.valid_propagation (by omega), runs]
  rfl

theorem stepMainThread (h : process.Joins) (flags : process.Flags) :
    process.stepMainThread.1.Takes := by
  have acquire : (process.acquire .stop).1.propagation = process.propagation :=
    (process.sameMain_acquire .stop).propagation
  have moves := process.movesMain
  generalize process.stepMainThread = step at moves
  generalize here : process.mainThread = place at moves
  cases moves with
  | stays => exact h.toTakes
  | storesKeepRunning => exact h.early here .stopsSubscriber rfl (by decide) rfl
  | stopsSubscriber => exact h.early here .notifiesSubscriber rfl (by decide) acquire
  | notifiesSubscriber => exact h.early here .clearsSubscriber rfl (by decide) acquire
  | clearsSubscriber => exact h.early here .stopsService rfl (by decide) acquire
  | stopsService => exact h.early here .unsubscribesAll rfl (by decide) rfl
  | unsubscribesAll => exact h.early here .shutsDown rfl (by decide) rfl
  | shutsDown => exact h.early here .waitsForReactors rfl (by decide) rfl
  | decides decision =>
      cases decision with
      | interrupted => exact h.early here .storesKeepRunning rfl (by decide) rfl
      | goesOn => exact h.early here .checksPropagation rfl (by decide) rfl
      | waits => exact h.early here .testsInterrupted rfl (by decide) rfl
      | checksAcquisition =>
          exact h.early here _ rfl ⟨Nat.zero_lt_succ 7, by split <;> exact Nat.zero_lt_succ 7⟩ rfl
      | checksPropagation checked =>
          rw [h.checks_propagation flags (by rw [here]; decide)] at checked
          have valid := h.valid_propagation (by rw [here]; decide)
          exact h.early here (.checksAcquisition _) rfl (by simp [MainThread.stage])
            ((congrArg Prod.fst checked).symm.trans valid.symm)
      | drains drained =>
          have gone (c : ContextAddress) : process.mService.server.reactors c = none := by
            by_contra live
            exact live (drained c (h.known c live))
          exact .of_place .getsPropagation rfl (fun _ => gone)
            (by rw [h.valid_propagation (by rw [here]; decide)]; decide)
            (fun late => absurd late (by decide)) (fun late => absurd late (by decide))
      | getsPropagation returned =>
          exact .of_place .getsAcquisition rfl (fun _ => h.drained (by rw [here]; decide))
            (iff_of_true rfl (by decide)) (fun _ => returned) (fun late => absurd late (by decide))
      | skipsPropagation invalid =>
          have valid := h.valid_propagation (by rw [here]; decide)
          cases valid.symm.trans invalid
      | getsAcquisition => exact h.through here .returned rfl rfl
      | throws => exact h.through here (.threw _) rfl rfl
      | skipsAcquisition invalid => exact h.through here .returned rfl invalid

theorem step (h : process.Joins) (flags : process.Flags) (event : ProcessEvent) :
    (processMachine.step process event).1.Joins where
  toTakes := by
    by_cases main : event = .mainThread
    · exact main ▸ h.stepMainThread flags
    · have same := process.sameMain_step main
      exact {
        drained := by
          rw [same.mainThread]
          intro late c
          refine gone_step (h.drained late c) fun open_ => ?_
          cases (flags.shutdown (by omega)).symm.trans open_
        propagation := by rw [same.propagation, same.mainThread, h.propagation]
        propagated := fun late => returned_step (h.propagated (same.mainThread ▸ late)) event
        taken := fun late => same.acquisition.trans (h.taken (same.mainThread ▸ late)) }
  known := h.known_step event
  returns := h.returns_step event
  acquired := h.acquired_step event

end Joins

def Caused (process : ServiceProcess) : Prop :=
  process.mInterrupted = true ∨ ∃ failure, process.acquisitionEnd = some (some failure)

theorem Caused.step (h : process.Caused) (event : ProcessEvent) :
    (processMachine.step process event).1.Caused := by
  rcases h with interrupted | ⟨failure, ended⟩
  · exact .inl (interrupted_step interrupted event)
  · exact .inr ⟨failure, acquisitionEnd_step ended event⟩

/-- The futures are okay until the main thread leaves its loop, and what it throws it has
from the future of the subscriber. -/
structure Causes (process : ServiceProcess) : Prop where
  valid : process.mainThread.Loops → process.acquisition = true
  okay : ∀ isOkay, process.mainThread = .checksAcquisition isOkay → isOkay = true
  cause : ¬process.mainThread.Loops → process.Caused
  signal : ¬process.mainThread.Loops → process.acquisition = true → process.mInterrupted = true
  failure : ∀ failure, process.mainThread = .threw failure →
    process.acquisitionEnd = some (some failure) ∧ process.mInterrupted = true

namespace Causes

theorem of_loops (valid : process.acquisition = true) (loops : process.mainThread.Loops)
    (okay : ∀ isOkay, process.mainThread = .checksAcquisition isOkay → isOkay = true) :
    process.Causes where
  valid := fun _ => valid
  okay := okay
  cause := fun out => absurd loops out
  signal := fun out => absurd loops out
  failure := fun failure threw => by
    rw [threw] at loops
    exact absurd loops id

theorem of_left (out : ¬process.mainThread.Loops) (cause : process.Caused)
    (signal : process.acquisition = true → process.mInterrupted = true)
    (quiet : ∀ failure, process.mainThread ≠ .threw failure) : process.Causes where
  valid := fun loops => absurd loops out
  okay := fun _ checks => absurd (checks ▸ trivial) out
  cause := fun _ => cause
  signal := fun _ => signal
  failure := fun failure threw => absurd threw (quiet failure)

theorem of_stop {place : MainThread} (out : ¬place.Loops)
    (cause : (goTo (process.acquire .stop) place).1.Caused)
    (signal : process.acquisition = true → process.mInterrupted = true)
    (quiet : ∀ failure, place ≠ .threw failure) :
    (goTo (process.acquire .stop) place).1.Causes := by
  have same := process.sameMain_acquire .stop
  exact of_left out cause
    (fun taken => same.interrupted (signal (same.acquisition.symm.trans taken))) quiet

theorem start (capacity : ℕ) (subscriberOptions : SubscriberOptions)
    (serverOptions : ServerOptions) (streamOptions : StreamOptions) :
    Causes (.start capacity subscriberOptions serverOptions streamOptions) :=
  of_loops rfl trivial (fun _ checks => by cases checks)

/-- While the subscriber runs, its thread does not return. -/
theorem returns_of_quits (quits : process.mSubscriber.impl.Quits)
    (running : process.mSubscriber.impl.mKeepRunning = true)
    (ended : process.acquisitionEnd = some none) : False := by
  unfold acquisitionEnd at ended
  split at ended
  · cases (quits ‹_›).symm.trans running
  · cases ended
  · cases ended
  · cases ended

theorem stepMainThread (h : process.Causes) (flags : process.Flags) (joins : process.Joins)
    (quits : process.mSubscriber.impl.Quits) : process.stepMainThread.1.Causes := by
  have caused (cause : process.Caused) : process.stepMainThread.1.Caused := cause.step .mainThread
  have moves := process.movesMain
  generalize process.stepMainThread = step at moves caused
  generalize here : process.mainThread = place at moves
  have leaves (out : ¬place.Loops) :
      process.Caused ∧ (process.acquisition = true → process.mInterrupted = true) := by
    subst here
    exact ⟨h.cause out, h.signal out⟩
  cases moves with
  | stays => exact h
  | storesKeepRunning | stopsService | unsubscribesAll | shutsDown =>
      obtain ⟨cause, signal⟩ := leaves id
      exact of_left id (caused cause) signal (fun _ threw => by cases threw)
  | stopsSubscriber | notifiesSubscriber | clearsSubscriber =>
      obtain ⟨cause, signal⟩ := leaves id
      exact of_stop id (caused cause) signal (fun _ threw => by cases threw)
  | decides decision =>
      cases decision with
      | interrupted on => exact of_left id (.inl on) (fun _ => on) (fun _ threw => by cases threw)
      | goesOn => exact of_loops (h.valid (here ▸ trivial)) trivial (fun _ checks => by cases checks)
      | waits => exact of_loops (h.valid (here ▸ trivial)) trivial (fun _ checks => by cases checks)
      | checksPropagation checked =>
          rw [joins.checks_propagation flags (by rw [here]; decide)] at checked
          obtain ⟨-, rfl⟩ := Prod.mk.inj checked
          exact of_loops (h.valid (here ▸ trivial)) trivial
            (fun isOkay checks => (MainThread.checksAcquisition.inj checks).symm)
      | @checksAcquisition isOkay acquisition isAcquired checked =>
          rw [h.valid (here ▸ trivial)] at checked
          have on : process.mSubscriber.impl.mKeepRunning = true := by
            by_contra off
            have late := flags.subscriber.mp (Bool.eq_false_iff.mpr off)
            rw [here] at late
            exact absurd late (by simp [MainThread.stage])
          have okay := h.okay isOkay here
          subst okay
          cases ended : process.acquisitionEnd with
          | none =>
              rw [ended] at checked
              obtain ⟨rfl, rfl⟩ := Prod.mk.inj checked
              exact of_loops rfl trivial (fun _ checks => by cases checks)
          | some result =>
              rw [ended] at checked
              cases result with
              | none => exact absurd (returns_of_quits quits on ended) id
              | some failure =>
                  obtain ⟨rfl, rfl⟩ := Prod.mk.inj checked
                  exact of_left id (.inr ⟨failure, ended⟩) (fun taken => by cases taken)
                    (fun _ threw => by cases threw)
      | drains | getsPropagation | skipsPropagation =>
          obtain ⟨cause, signal⟩ := leaves id
          exact of_left id (caused cause) signal (fun _ threw => by cases threw)
      | getsAcquisition =>
          obtain ⟨cause, -⟩ := leaves id
          exact of_left id (caused cause) (fun taken => by cases taken) (fun _ threw => by cases threw)
      | skipsAcquisition =>
          obtain ⟨cause, signal⟩ := leaves id
          exact of_left id (caused cause) signal (fun _ threw => by cases threw)
      | throws valid ended =>
          obtain ⟨cause, signal⟩ := leaves id
          exact {
            valid := fun loops => absurd loops id
            okay := fun _ checks => by cases checks
            cause := fun _ => caused cause
            signal := fun _ taken => by cases taken
            failure := fun _ threw => by
              cases threw
              exact ⟨ended, signal valid⟩ }

theorem step (h : process.Causes) (flags : process.Flags) (joins : process.Joins)
    (quits : process.mSubscriber.impl.Quits) (event : ProcessEvent) :
    (processMachine.step process event).1.Causes := by
  by_cases main : event = .mainThread
  · exact main ▸ h.stepMainThread flags joins quits
  · have same := process.sameMain_step main
    exact {
      valid := fun loops => same.acquisition.trans (h.valid (same.mainThread ▸ loops))
      okay := fun isOkay checks => h.okay isOkay (same.mainThread.symm.trans checks)
      cause := fun out => (h.cause (same.mainThread ▸ out)).step event
      signal := fun out taken => same.interrupted
        (h.signal (same.mainThread ▸ out) (same.acquisition.symm.trans taken))
      failure := fun failure threw => by
        obtain ⟨ended, interrupted⟩ := h.failure failure (same.mainThread.symm.trans threw)
        exact ⟨acquisitionEnd_step ended event, same.interrupted interrupted⟩ }

end Causes

structure Ordered (process : ServiceProcess) : Prop where
  flags : process.Flags
  joins : process.Joins
  causes : process.Causes
  quits : process.mSubscriber.impl.Quits
  regular : process.mService.Regular
  sound : ∃ actions, process.mSubscriber.Sound actions

theorem Ordered.start (capacity : ℕ) (subscriberOptions : SubscriberOptions)
    (serverOptions : ServerOptions) (streamOptions : StreamOptions) :
    Ordered (.start capacity subscriberOptions serverOptions streamOptions) :=
  ⟨.start .., .start .., .start .., (fun returned => by cases returned),
    BusyServer.start_regular serverOptions streamOptions, [], .start subscriberOptions⟩

theorem Ordered.step (h : process.Ordered) (event : ProcessEvent) :
    (processMachine.step process event).1.Ordered where
  flags := h.flags.step event
  joins := h.joins.step h.flags event
  causes := h.causes.step h.flags h.joins h.quits event
  quits := impl_invariant SubscriberImpl.Quits (fun _ event quits => quits.step event) h.quits event
  regular := process_moves_service.invariant BusyServer.Regular (fun _ event h => h.step event)
    h.regular event
  sound := process_moves_subscriber.invariant (fun thread => ∃ actions, thread.Sound actions)
    (fun _ event ⟨_, sound⟩ => ⟨_, (sound.step event).1⟩) h.sound event

theorem Ordered.run (h : process.Ordered) (events : List ProcessEvent) :
    (processMachine.run process events).Ordered :=
  processMachine.run_invariant Ordered (fun _ event h => h.step event) h events

end ServiceProcess

end UDataPacketService
