import UDataPacketService.ProcessOrder

/-! The end of the process. After a signal or a failure of the subscriber, a schedule that
is fair to the threads, to gRPC and to the clients brings the main thread through `stop`. -/
namespace UDataPacketService

/-- What the main thread does in a step: nothing, a turn of its loop, or a statement of
`stop`. -/
inductive MainThread.Goes : MainThread → MainThread → Prop where
  | stays (place : MainThread) : Goes place place
  | loops {place next : MainThread} (before : place.Loops) (after : next.Loops) : Goes place next
  | leaves {place : MainThread} (before : place.Loops) : Goes place .storesKeepRunning
  | stops {place next : MainThread} (before : ¬place.Loops) (after : ¬next.Loops)
      (stage : next.stage = place.stage + 1) : Goes place next

theorem MainThread.through_of_stage {place : MainThread} (through : 10 ≤ place.stage) :
    place = .returned ∨ ∃ failure, place = .threw failure := by
  cases place with
  | returned => exact .inl rfl
  | threw failure => exact .inr ⟨failure, rfl⟩
  | testsInterrupted | checksPropagation | checksAcquisition | waits | storesKeepRunning
  | stopsSubscriber | notifiesSubscriber | clearsSubscriber | stopsService | unsubscribesAll
  | shutsDown | waitsForReactors | getsPropagation | getsAcquisition =>
      simp [MainThread.stage] at through

theorem MainThread.Goes.of_eq {place next : MainThread} (same : next = place) :
    place.Goes next := by
  subst same
  exact .stays next

namespace ServiceProcess

theorem goes_stepMainThread (process : ServiceProcess) :
    process.mainThread.Goes process.stepMainThread.1.mainThread := by
  have moves := process.movesMain
  generalize process.stepMainThread = step at moves
  generalize here : process.mainThread = place at moves
  cases moves with
  | stays => exact .of_eq here
  | storesKeepRunning | stopsSubscriber | notifiesSubscriber | clearsSubscriber | stopsService
  | unsubscribesAll | shutsDown => exact .stops id id rfl
  | decides decision =>
      cases decision with
      | interrupted => exact .leaves trivial
      | goesOn | checksPropagation | waits => exact .loops trivial trivial
      | checksAcquisition =>
          simp only
          split
          · exact .loops trivial trivial
          · exact .leaves trivial
      | drains | getsPropagation | skipsPropagation | getsAcquisition | throws
      | skipsAcquisition => exact .stops id id rfl

theorem later_step (process : ServiceProcess) (event : ProcessEvent) :
    (¬process.mainThread.Loops → ¬(processMachine.step process event).1.mainThread.Loops) ∧
      process.mainThread.stage ≤ (processMachine.step process event).1.mainThread.stage := by
  by_cases main : event = .mainThread
  · subst main
    have goes := process.goes_stepMainThread
    change (_ → ¬process.stepMainThread.1.mainThread.Loops) ∧
      _ ≤ process.stepMainThread.1.mainThread.stage
    generalize process.stepMainThread.1.mainThread = next at goes
    have first {place : MainThread} (loops : place.Loops) : place.stage = 0 := by
      cases place <;> first | rfl | exact absurd loops id
    cases goes with
    | stays => exact ⟨id, le_rfl⟩
    | loops before => exact ⟨fun out => absurd before out, (first before).trans_le (Nat.zero_le _)⟩
    | leaves before => exact ⟨fun _ => id, (first before).trans_le (Nat.zero_le _)⟩
    | stops before after stage => exact ⟨fun _ => after, by omega⟩
  · rw [(process.sameMain_step main).mainThread]
    exact ⟨id, le_rfl⟩

end ServiceProcess

structure ServedBy (c : ContextAddress) (schedule : ℕ → ProcessEvent) : Prop where
  proceeds : ∀ t, ∃ u, t ≤ u ∧ schedule u = .proceed c
  passes : ∀ t, ∃ u, t ≤ u ∧ schedule u = .reactor c .pass
  answers : ∀ t, ∃ u, t ≤ u ∧ ∃ ok, schedule u = .reactor c (.onWriteDone ok)
  ends : ∀ t, ∃ u, t ≤ u ∧ schedule u = .reactor c .onDone

/-- Every thread takes steps again and again. gRPC answers the read of an RPC that stays
cancelled, and ends one that stays over. -/
structure FairProcess (start : ServiceProcess) (schedule : ℕ → ProcessEvent) : Prop where
  mainThread : ∀ t, ∃ u, t ≤ u ∧ schedule u = .mainThread
  propagateImportPackets : ∀ t, ∃ u, t ≤ u ∧ schedule u = .propagateImportPackets
  acquirePackets : ∀ t, ∃ u, t ≤ u ∧ schedule u = .acquirePackets
  waitReturns : ∀ t, ∃ u, t ≤ u ∧ schedule u = .waitReturns
  stepOnReadDone : ∀ t, ∃ u, t ≤ u ∧ schedule u = .stepOnReadDone
  answers : ∀ t, (∀ u, t ≤ u →
      (processMachine.stateAt start schedule u).mSubscriber.CancelledRead) →
    ∃ u, t ≤ u ∧ ∃ read, schedule u = .onReadDone read
  ends : ∀ t, (∀ u, t ≤ u →
      (processMachine.stateAt start schedule u).mSubscriber.EndingRPC) →
    ∃ u, t ≤ u ∧ ∃ status, schedule u = .onDone status
  clients : ∀ c t, (processMachine.stateAt start schedule t).mService.server.reactors c ≠ none →
    ServedBy c schedule

def MainThread.interruptedRank : MainThread → ℕ
  | .checksPropagation => 4
  | .checksAcquisition _ => 3
  | .waits => 2
  | .testsInterrupted => 1
  | _ => 0

def MainThread.failedRank : MainThread → ℕ
  | .waits => 4
  | .testsInterrupted => 3
  | .checksPropagation => 2
  | .checksAcquisition _ => 1
  | _ => 0

namespace FairProcess
variable {start : ServiceProcess} {schedule : ℕ → ProcessEvent}

/-- The main thread gets to where a rank of its places leads that each of its steps lowers. -/
theorem eventually_main (fair : FairProcess start schedule) (Done : MainThread → Prop)
    (rank : MainThread → ℕ) {t : ℕ}
    (falls : ∀ u, t ≤ u → ¬Done (processMachine.stateAt start schedule u).mainThread →
      rank (processMachine.stateAt start schedule u).stepMainThread.1.mainThread <
        rank (processMachine.stateAt start schedule u).mainThread) :
    ∃ u, t ≤ u ∧ Done (processMachine.stateAt start schedule u).mainThread := by
  have progress (u : ℕ) (later : t ≤ u) : Machine.RankProgress
      (fun process : ServiceProcess => Done process.mainThread)
      (fun process => rank process.mainThread) (fun _ event => event = .mainThread)
      (processMachine.stateAt start schedule u) (processMachine.stateAt start schedule (u + 1))
      (schedule u) := by
    intro going
    rw [Machine.stateAt_succ]
    by_cases main : schedule u = .mainThread
    · rw [main]
      exact .inl (falls u later going)
    · exact .inr ⟨congrArg rank (ServiceProcess.sameMain_step _ main).mainThread, rfl, main⟩
  exact Machine.eventually_of_rank (fun _ => fair.mainThread) progress

theorem ordered_stateAt (schedule : ℕ → ProcessEvent) (ordered : start.Ordered) (t : ℕ) :
    (processMachine.stateAt start schedule t).Ordered := by
  rw [Machine.stateAt_eq_run]
  exact ordered.run _

/-- After a signal or a failure the main thread leaves its loop. -/
theorem eventually_leaves (fair : FairProcess start schedule) (ordered : start.Ordered) {t : ℕ}
    (cause : (processMachine.stateAt start schedule t).Caused) :
    ∃ u, t ≤ u ∧ ¬(processMachine.stateAt start schedule u).mainThread.Loops := by
  rcases cause with interrupted | ⟨failure, ended⟩
  · refine fair.eventually_main (¬·.Loops) MainThread.interruptedRank (fun u later loops => ?_)
    have still : (processMachine.stateAt start schedule u).mInterrupted = true :=
      Machine.stateAt_stable (fun process : ServiceProcess => process.mInterrupted = true) later
        (fun _ _ now => ServiceProcess.interrupted_step now _) interrupted
    generalize processMachine.stateAt start schedule u = process at loops still
    unfold ServiceProcess.stepMainThread
    cases place : process.mainThread with
    | testsInterrupted =>
        simp only [still, if_true]
        decide
    | checksPropagation => exact Nat.lt_succ_self 3
    | checksAcquisition isOkay =>
        simp only
        split <;> simp [MainThread.interruptedRank]
    | waits => exact Nat.lt_succ_self 1
    | storesKeepRunning | stopsSubscriber | notifiesSubscriber | clearsSubscriber | stopsService
    | unsubscribesAll | shutsDown | waitsForReactors | getsPropagation | getsAcquisition | returned
    | threw =>
        rw [place] at loops
        exact absurd id loops
  · refine fair.eventually_main (¬·.Loops) MainThread.failedRank (fun u later loops => ?_)
    have still : (processMachine.stateAt start schedule u).acquisitionEnd = some (some failure) :=
      Machine.stateAt_stable
        (fun process : ServiceProcess => process.acquisitionEnd = some (some failure)) later
        (fun _ _ now => ServiceProcess.acquisitionEnd_step now _) ended
    have causes := (ordered_stateAt schedule ordered u).causes
    generalize processMachine.stateAt start schedule u = process at loops still causes
    unfold ServiceProcess.stepMainThread
    cases place : process.mainThread with
    | testsInterrupted =>
        simp only
        split <;> decide
    | checksPropagation => exact Nat.lt_succ_self 1
    | checksAcquisition isOkay =>
        simp only [still, causes.valid (not_not.mp loops)]
        simp [ServiceProcess.checkFuture, MainThread.failedRank]
    | waits => exact Nat.lt_succ_self 3
    | storesKeepRunning | stopsSubscriber | notifiesSubscriber | clearsSubscriber | stopsService
    | unsubscribesAll | shutsDown | waitsForReactors | getsPropagation | getsAcquisition | returned
    | threw =>
        rw [place] at loops
        exact absurd id loops

theorem later_stateAt {t u : ℕ} (later : t ≤ u) {n : ℕ}
    (left : ¬(processMachine.stateAt start schedule t).mainThread.Loops)
    (stage : n ≤ (processMachine.stateAt start schedule t).mainThread.stage) :
    ¬(processMachine.stateAt start schedule u).mainThread.Loops ∧
      n ≤ (processMachine.stateAt start schedule u).mainThread.stage :=
  Machine.stateAt_stable
    (fun process : ServiceProcess => ¬process.mainThread.Loops ∧ n ≤ process.mainThread.stage) later
    (fun v _ now => ⟨(ServiceProcess.later_step _ (schedule v)).1 now.1,
      now.2.trans (ServiceProcess.later_step _ (schedule v)).2⟩) ⟨left, stage⟩

theorem eventually_shutsDown (fair : FairProcess start schedule) {t : ℕ}
    (left : ¬(processMachine.stateAt start schedule t).mainThread.Loops) :
    ∃ u, t ≤ u ∧ 7 ≤ (processMachine.stateAt start schedule u).mainThread.stage := by
  refine fair.eventually_main (7 ≤ ·.stage) (7 - ·.stage) (fun u later early => ?_)
  have out := (later_stateAt later left (Nat.zero_le _)).1
  generalize processMachine.stateAt start schedule u = process at early out
  have next : process.stepMainThread.1.mainThread.stage = process.mainThread.stage + 1 := by
    have moves := process.movesMain
    generalize process.stepMainThread = step, process.mainThread = place at moves early out ⊢
    cases moves with
    | stays blocked => exact absurd blocked.stage early
    | decides decision =>
        rcases decision.stage with ⟨loops, -⟩ | ⟨late, -⟩
        · exact absurd loops out
        · exact absurd late early
    | storesKeepRunning | stopsSubscriber | notifiesSubscriber | clearsSubscriber | stopsService
    | unsubscribesAll | shutsDown => rfl
  omega

def propagationRank : PropagateImportPackets → ℕ
  | .pops => 3
  | .enqueues _ | .sleeps => 2
  | .loadsKeepRunning => 1
  | .returned => 0

theorem eventually_returns (fair : FairProcess start schedule) {t : ℕ}
    (off : (processMachine.stateAt start schedule t).mKeepRunning = false) :
    ∃ u, t ≤ u ∧ (processMachine.stateAt start schedule u).propagateImportPackets = .returned := by
  have progress (u : ℕ) (later : t ≤ u) : Machine.RankProgress
      (fun process : ServiceProcess => process.propagateImportPackets = .returned)
      (fun process => propagationRank process.propagateImportPackets)
      (fun _ event => event = .propagateImportPackets)
      (processMachine.stateAt start schedule u) (processMachine.stateAt start schedule (u + 1))
      (schedule u) := by
    intro going
    rw [Machine.stateAt_succ]
    have still : (processMachine.stateAt start schedule u).mKeepRunning = false :=
      Machine.stateAt_stable (fun process : ServiceProcess => process.mKeepRunning = false) later
        (fun _ _ now => ServiceProcess.keepRunning_step now _) off
    generalize processMachine.stateAt start schedule u = process at going still
    by_cases own : schedule u = .propagateImportPackets
    · left
      rw [own]
      simp only [processMachine, ServiceProcess.stepPropagation]
      cases place : process.propagateImportPackets with
      | loadsKeepRunning =>
          simp only [still]
          exact Nat.zero_lt_one
      | pops =>
          simp only
          split <;> exact Nat.lt_succ_self 2
      | enqueues packet => exact Nat.lt_succ_self 1
      | sleeps => exact Nat.lt_succ_self 1
      | returned => exact absurd place going
    · exact .inr ⟨congrArg propagationRank (process.propagateImportPackets_step own), rfl, own⟩
  exact Machine.eventually_of_rank (fun _ => fair.propagateImportPackets) progress

end FairProcess

inductive ProcessEvent.Serves : ProcessEvent → CallEvent → Prop where
  | proceed (context : ContextAddress) : Serves (.proceed context) (.proceed context)
  | reactor (context : ContextAddress) (event : ReactorEvent) :
      Serves (.reactor context event) (.reactor context event)

theorem ServedBy.helps {c : ContextAddress} {schedule : ℕ → ProcessEvent}
    (served : ServedBy c schedule) (busy : BusyServer) (t : ℕ) :
    ∃ u, t ≤ u ∧ ∃ call, (schedule u).Serves call ∧ busy.HelpsAt c call := by
  rcases BusyServer.helpsAt_cases c busy with proceeds | passes | answers | ends
  · obtain ⟨u, later, comes⟩ := served.proceeds t
    exact ⟨u, later, _, comes ▸ .proceed c, proceeds⟩
  · obtain ⟨u, later, comes⟩ := served.passes t
    exact ⟨u, later, _, comes ▸ .reactor c .pass, passes⟩
  · obtain ⟨u, later, ok, comes⟩ := served.answers t
    exact ⟨u, later, _, comes ▸ .reactor c (.onWriteDone ok), answers ok⟩
  · obtain ⟨u, later, comes⟩ := served.ends t
    exact ⟨u, later, _, comes ▸ .reactor c .onDone, ends⟩

namespace FairProcess
variable {start : ServiceProcess} {schedule : ℕ → ProcessEvent}

/-- When the server is stopped and shut down, the reactor of a context is deleted. -/
theorem eventually_gone (fair : FairProcess start schedule) (ordered : start.Ordered) {t : ℕ}
    (left : ¬(processMachine.stateAt start schedule t).mainThread.Loops)
    (late : 7 ≤ (processMachine.stateAt start schedule t).mainThread.stage) (c : ContextAddress) :
    ∃ u, t ≤ u ∧ ∀ v, u ≤ v →
      (processMachine.stateAt start schedule v).mService.server.reactors c = none := by
  have gone : ∃ u, t ≤ u ∧
      (processMachine.stateAt start schedule u).mService.server.reactors c = none := by
    by_cases live : (processMachine.stateAt start schedule t).mService.server.reactors c = none
    · exact ⟨t, le_rfl, live⟩
    · have served := fair.clients c t live
      have progress (u : ℕ) (later : t ≤ u) : Machine.RankProgress
          (fun process : ServiceProcess => process.mService.server.reactors c = none)
          (fun process => process.mService.stoppedRank c)
          (fun process event => ∃ call, event.Serves call ∧ process.mService.HelpsAt c call)
          (processMachine.stateAt start schedule u) (processMachine.stateAt start schedule (u + 1))
          (schedule u) := by
        have now := ordered_stateAt schedule ordered u
        have stopped := now.flags.service
          ((by decide : 5 ≤ 7).trans (later_stateAt later left late).2)
        have taken (call : CallEvent) (serves : (schedule u).Serves call) :
            ∃ done, ((processMachine.step (processMachine.stateAt start schedule u)
              (schedule u)).2.called.map (·, ())) = some (call, done) := by
          generalize schedule u = event at serves
          cases serves <;> exact ⟨(), rfl⟩
        exact process_moves_service.progress taken (stopped.progress now.regular)
      exact Machine.eventually_of_rank (fun process => served.helps process.mService) progress
  obtain ⟨u, later, gone⟩ := gone
  refine ⟨u, later, fun v after => ?_⟩
  exact Machine.stateAt_stable
    (fun process : ServiceProcess => process.mService.server.reactors c = none) after
    (fun w since gone => ServiceProcess.gone_step gone (fun open_ => by
      have shut := (ordered_stateAt schedule ordered w).flags.shutdown
        (later_stateAt (later.trans since) left late).2
      cases shut.symm.trans open_)) gone

end FairProcess

inductive ProcessEvent.Acquires : ProcessEvent → ReaderEvent → Prop where
  | acquirePackets : Acquires .acquirePackets .acquirePackets
  | waitReturns : Acquires .waitReturns .waitReturns
  | onReadDone (read : Option ImportAPI.Packet) : Acquires (.onReadDone read) (.onReadDone read)
  | stepOnReadDone : Acquires .stepOnReadDone .reactor
  | onDone (status : RPCStatusCode) : Acquires (.onDone status) (.onDone status)

namespace ServiceProcess

/-- What a step is for the subscriber and the callback in which its RPC may be. -/
inductive Turns (process : ServiceProcess) (event : ProcessEvent) (next : ServiceProcess) :
    Prop where
  | callback (running : process.imports.addPacketCallback ≠ .returned)
      (subscriber : next.mSubscriber = process.mSubscriber)
      (imports : next.imports = process.imports.stepCallback.1)
  | elsewhere (subscriber : next.mSubscriber = process.mSubscriber)
      (imports : next.imports = process.imports ∨
        next.imports = process.imports.propagateImportPackets.1)
      (other : event ≠ .stepOnReadDone) (none : ∀ read, ¬event.Acquires read)
  | acquires (read : ReaderEvent)
      (subscriber : next.mSubscriber = (readerMachine.step process.mSubscriber read).1)
      (imports : next.imports = process.imports ∨
        ∃ copy, (readerMachine.step process.mSubscriber read).2 = .addsPacket copy)
      (own : ∀ other, event.Acquires other → other = read)
      (idle : event = .stepOnReadDone → process.imports.addPacketCallback = .returned)

theorem acquire_parts (process : ServiceProcess) (read : ReaderEvent) :
    (process.acquire read).1.mSubscriber = (readerMachine.step process.mSubscriber read).1 ∧
      ((process.acquire read).1.imports = process.imports ∨
        ∃ copy, (readerMachine.step process.mSubscriber read).2 = .addsPacket copy) := by
  unfold acquire
  simp only
  split
  · rename_i copy adds
    exact ⟨rfl, .inr ⟨copy, adds⟩⟩
  · exact ⟨rfl, .inl rfl⟩

theorem turns (process : ServiceProcess) (event : ProcessEvent) :
    process.Turns event (processMachine.step process event).1 := by
  cases event with
  | signal => exact .elsewhere rfl (.inl rfl) (by simp) (fun _ takes => by cases takes)
  | mainThread =>
      have stop := process.acquire_parts .stop
      change process.Turns .mainThread process.stepMainThread.1
      have other : ProcessEvent.mainThread ≠ .stepOnReadDone := by simp
      have none (read : ReaderEvent) : ¬ProcessEvent.mainThread.Acquires read :=
        fun takes => by cases takes
      have moves := process.movesMain
      generalize process.stepMainThread = step, process.mainThread = place at moves
      cases moves with
      | stopsSubscriber | notifiesSubscriber | clearsSubscriber =>
          exact .acquires .stop stop.1 stop.2 (fun read takes => absurd takes (none read))
            (fun same => absurd same other)
      | stays | decides | storesKeepRunning | stopsService | unsubscribesAll | shutsDown =>
          exact .elsewhere rfl (.inl rfl) other none
  | propagateImportPackets =>
      have none (read : ReaderEvent) : ¬ProcessEvent.propagateImportPackets.Acquires read :=
        fun takes => by cases takes
      simp only [processMachine, stepPropagation]
      split
      · exact .elsewhere rfl (.inl rfl) (by simp) none
      · exact .elsewhere rfl (.inr rfl) (by simp) none
      · exact .elsewhere rfl (.inl rfl) (by simp) none
      · exact .elsewhere rfl (.inl rfl) (by simp) none
      · exact .elsewhere rfl (.inl rfl) (by simp) none
  | acquirePackets =>
      obtain ⟨subscriber, imports⟩ := process.acquire_parts .acquirePackets
      exact .acquires .acquirePackets subscriber imports (fun _ takes => by cases takes; rfl) (by simp)
  | waitReturns =>
      obtain ⟨subscriber, imports⟩ := process.acquire_parts .waitReturns
      exact .acquires .waitReturns subscriber imports (fun _ takes => by cases takes; rfl) (by simp)
  | onReadDone read =>
      obtain ⟨subscriber, imports⟩ := process.acquire_parts (.onReadDone read)
      exact .acquires (.onReadDone read) subscriber imports (fun _ takes => by cases takes; rfl)
        (by simp)
  | stepOnReadDone =>
      simp only [processMachine, stepOnReadDone]
      split
      · rename_i returned
        obtain ⟨subscriber, imports⟩ := process.acquire_parts .reactor
        exact .acquires .reactor subscriber imports (fun _ takes => by cases takes; rfl)
          (fun _ => returned)
      · exact .callback ‹_› rfl rfl
  | onDone status =>
      obtain ⟨subscriber, imports⟩ := process.acquire_parts (.onDone status)
      exact .acquires (.onDone status) subscriber imports (fun _ takes => by cases takes; rfl)
        (by simp)
  | connect call =>
      simp only [processMachine, connect]
      split <;> exact .elsewhere rfl (.inl rfl) (by simp) (fun _ takes => by cases takes)
  | proceed | reactor =>
      exact .elsewhere rfl (.inl rfl) (by simp) (fun _ takes => by cases takes)

/-- The steps to the end of a subscriber that should not run, and to the return of the
callback that one of them waits for. -/
def subscriberRank (process : ServiceProcess) : ℕ ×ₗ ℕ :=
  toLex (process.mSubscriber.stoppedRank, process.imports.callbackRank)

def HelpsSubscriber (process : ServiceProcess) (event : ProcessEvent) : Prop :=
  if process.imports.addPacketCallback = .returned then
    ∃ read, event.Acquires read ∧ process.mSubscriber.Helps read
  else event = .stepOnReadDone

theorem helpsSubscriber_congr {process next : ServiceProcess}
    (subscriber : next.mSubscriber.Helps = process.mSubscriber.Helps)
    (callback : next.imports.addPacketCallback = process.imports.addPacketCallback) :
    next.HelpsSubscriber = process.HelpsSubscriber := by
  funext event
  simp only [HelpsSubscriber, subscriber, callback]

theorem addPacketCallback_propagate (imports : ImportProcess) :
    imports.propagateImportPackets.1.addPacketCallback = imports.addPacketCallback := by
  unfold ImportProcess.propagateImportPackets
  split <;> rfl

/-- A step takes a subscriber that should not run on, or leaves what does. -/
theorem subscriber_advances {process : ServiceProcess} {actions : List ReaderAction}
    (sound : process.mSubscriber.Sound actions)
    (off : process.mSubscriber.impl.mKeepRunning = false) (event : ProcessEvent) :
    Machine.Advances (fun process : ServiceProcess => process.mSubscriber.Ended) subscriberRank
      HelpsSubscriber process (processMachine.step process event).1 event := by
  intro going
  have turns := process.turns event
  generalize (processMachine.step process event).1 = next at turns
  cases turns with
  | callback running subscriber imports =>
      refine .inl (Prod.Lex.toLex_lt_toLex.mpr (.inr
        ⟨congrArg SubscriberThread.stoppedRank subscriber, ?_⟩))
      rw [imports]
      exact callbackRank_stepCallback running
  | elsewhere subscriber imports other none =>
      have quiet : ¬process.HelpsSubscriber event := by
        unfold HelpsSubscriber
        split
        · rintro ⟨read, takes, -⟩
          exact none read takes
        · exact other
      have same := congrArg SubscriberThread.Helps subscriber
      rcases imports with imports | imports
      · refine .inr ⟨?_, helpsSubscriber_congr same (congrArg _ imports), quiet⟩
        simp only [subscriberRank, subscriber, imports]
      · have callback := (congrArg _ imports).trans (addPacketCallback_propagate process.imports)
        have ranks := callbackRank_propagateImportPackets process.imports
        rw [← imports] at ranks
        rcases ranks.lt_or_eq with falls | stays
        · exact .inl (Prod.Lex.toLex_lt_toLex.mpr
            (.inr ⟨congrArg SubscriberThread.stoppedRank subscriber, falls⟩))
        · refine .inr ⟨?_, helpsSubscriber_congr same callback, quiet⟩
          simp only [subscriberRank, subscriber, stays]
  | acquires read subscriber imports own idle =>
      rcases sound.progress off read going with falls | ⟨stays, kept, other⟩
      · rw [← subscriber] at falls
        exact .inl (Prod.Lex.toLex_lt_toLex.mpr (.inl falls))
      · rw [← subscriber] at stays kept
        have imports := imports.resolve_right (fun ⟨_, adds⟩ => other (sound.helps_addsPacket adds))
        refine .inr ⟨?_, helpsSubscriber_congr kept (congrArg _ imports), ?_⟩
        · simp only [subscriberRank, stays, imports]
        · unfold HelpsSubscriber
          split
          · rintro ⟨taken, takes, helps⟩
            exact other (own taken takes ▸ helps)
          · rename_i running
            exact fun steps => running (idle steps)

theorem cancelledRead_of_helps {process : ServiceProcess} {read : Option ImportAPI.Packet}
    (helps : process.HelpsSubscriber (.onReadDone read)) : process.mSubscriber.CancelledRead := by
  unfold HelpsSubscriber at helps
  split at helps
  · obtain ⟨_, takes, helps⟩ := helps
    cases takes
    exact SubscriberThread.cancelledRead_of_helps helps
  · cases helps

theorem endingRPC_of_helps {process : ServiceProcess} {actions : List ReaderAction}
    (sound : process.mSubscriber.Sound actions) {status : RPCStatusCode}
    (helps : process.HelpsSubscriber (.onDone status)) : process.mSubscriber.EndingRPC := by
  unfold HelpsSubscriber at helps
  split at helps
  · obtain ⟨_, takes, helps⟩ := helps
    cases takes
    exact sound.endingRPC_of_helps helps
  · cases helps

end ServiceProcess

namespace FairProcess
variable {start : ServiceProcess} {schedule : ℕ → ProcessEvent}

theorem helps_subscriber (fair : FairProcess start schedule) (ordered : start.Ordered) {t : ℕ}
    (same : ∀ u, t ≤ u → (processMachine.stateAt start schedule u).HelpsSubscriber =
      (processMachine.stateAt start schedule t).HelpsSubscriber) :
    ∃ u, t ≤ u ∧ (processMachine.stateAt start schedule t).HelpsSubscriber (schedule u) := by
  obtain ⟨actions, sound⟩ := (ordered_stateAt schedule ordered t).sound
  by_cases returned : (processMachine.stateAt start schedule t).imports.addPacketCallback = .returned
  · have helps {event : ProcessEvent} {read : ReaderEvent} (takes : event.Acquires read)
        (helps : (processMachine.stateAt start schedule t).mSubscriber.Helps read) :
        (processMachine.stateAt start schedule t).HelpsSubscriber event := by
      unfold ServiceProcess.HelpsSubscriber
      rw [if_pos returned]
      exact ⟨read, takes, helps⟩
    cases sound.helpedBy with
    | acquirePackets own =>
        obtain ⟨u, later, comes⟩ := fair.acquirePackets t
        exact ⟨u, later, comes ▸ helps .acquirePackets own⟩
    | waitReturns own =>
        obtain ⟨u, later, comes⟩ := fair.waitReturns t
        exact ⟨u, later, comes ▸ helps .waitReturns own⟩
    | reactor own =>
        obtain ⟨u, later, comes⟩ := fair.stepOnReadDone t
        exact ⟨u, later, comes ▸ helps .stepOnReadDone own⟩
    | answer reads own =>
        obtain ⟨u, later, read, comes⟩ := fair.answers t (fun u later => by
          have still := same u later ▸ helps (.onReadDone none) (own none)
          exact ServiceProcess.cancelledRead_of_helps still)
        exact ⟨u, later, comes ▸ helps (.onReadDone read) (own read)⟩
    | ending ends own =>
        obtain ⟨u, later, status, comes⟩ := fair.ends t (fun u later => by
          obtain ⟨_, sound⟩ := (ordered_stateAt schedule ordered u).sound
          have still := same u later ▸ helps (.onDone .ok) (own .ok)
          exact ServiceProcess.endingRPC_of_helps sound still)
        exact ⟨u, later, comes ▸ helps (.onDone status) (own status)⟩
  · obtain ⟨u, later, comes⟩ := fair.stepOnReadDone t
    refine ⟨u, later, ?_⟩
    unfold ServiceProcess.HelpsSubscriber
    rw [if_neg returned]
    exact comes

theorem eventually_ended (fair : FairProcess start schedule) (ordered : start.Ordered) {t : ℕ}
    (left : ¬(processMachine.stateAt start schedule t).mainThread.Loops)
    (late : 4 ≤ (processMachine.stateAt start schedule t).mainThread.stage) :
    ∃ u, t ≤ u ∧ (processMachine.stateAt start schedule u).mSubscriber.Ended := by
  have progress (u : ℕ) (later : t ≤ u) : Machine.Advances
      (fun process : ServiceProcess => process.mSubscriber.Ended) ServiceProcess.subscriberRank
      ServiceProcess.HelpsSubscriber (processMachine.stateAt start schedule u)
      (processMachine.stateAt start schedule (u + 1)) (schedule u) := by
    have now := ordered_stateAt schedule ordered u
    obtain ⟨actions, sound⟩ := now.sound
    exact ServiceProcess.subscriber_advances sound
      (now.flags.subscriber.mpr (later_stateAt later left late).2) (schedule u)
  exact Machine.eventually_of_advances (fun u later forever =>
    fair.helps_subscriber ordered (fun v after => (forever v after).2.2)) progress

/-- No reactor is left from some time on, since no call is taken any more. -/
theorem eventually_drained (fair : FairProcess start schedule) (ordered : start.Ordered) {t : ℕ}
    (left : ¬(processMachine.stateAt start schedule t).mainThread.Loops)
    (late : 7 ≤ (processMachine.stateAt start schedule t).mainThread.stage) :
    ∃ u, t ≤ u ∧ ∀ v, u ≤ v → ∀ c,
      (processMachine.stateAt start schedule v).mService.server.reactors c = none := by
  have each : ∀ c ∈ {c | c ∈ (processMachine.stateAt start schedule t).calls},
      ∀ᶠ v in Filter.atTop,
        (processMachine.stateAt start schedule v).mService.server.reactors c = none := by
    intro c _
    obtain ⟨u, -, gone⟩ := fair.eventually_gone ordered left late c
    exact Filter.eventually_atTop.mpr ⟨u, gone⟩
  obtain ⟨u, all⟩ := Filter.eventually_atTop.mp
    ((Filter.eventually_all_finite (List.finite_toSet _)).mpr each)
  refine ⟨max t u, le_max_left t u, fun v later c => ?_⟩
  by_cases known : c ∈ (processMachine.stateAt start schedule t).calls
  · exact all v ((le_max_right t u).trans later) c known
  · have absent : (processMachine.stateAt start schedule t).mService.server.reactors c = none := by
      by_contra live
      exact known ((ordered_stateAt schedule ordered t).joins.known c live)
    refine Machine.stateAt_stable
      (fun process : ServiceProcess => process.mService.server.reactors c = none)
      ((le_max_left t u).trans later) (fun w since gone => ?_) absent
    refine ServiceProcess.gone_step gone (fun open_ => ?_)
    have shut := (ordered_stateAt schedule ordered w).flags.shutdown
      (later_stateAt since left late).2
    cases shut.symm.trans open_

theorem eventually_through (fair : FairProcess start schedule) {t : ℕ}
    (left : ¬(processMachine.stateAt start schedule t).mainThread.Loops)
    (late : 7 ≤ (processMachine.stateAt start schedule t).mainThread.stage)
    (gone : ∀ u, t ≤ u → ∀ c,
      (processMachine.stateAt start schedule u).mService.server.reactors c = none)
    (returned : (processMachine.stateAt start schedule t).propagateImportPackets = .returned)
    (ended : (processMachine.stateAt start schedule t).mSubscriber.Ended) :
    ∃ u, t ≤ u ∧ 10 ≤ (processMachine.stateAt start schedule u).mainThread.stage := by
  refine fair.eventually_main (10 ≤ ·.stage) (10 - ·.stage) (fun u later early => ?_)
  have gone := gone u later
  have late := (later_stateAt later left late).2
  have returned := Machine.stateAt_stable
    (fun process : ServiceProcess => process.propagateImportPackets = .returned) later
    (fun _ _ now => ServiceProcess.returned_step now _) returned
  obtain ⟨result, ended⟩ := ServiceProcess.acquisitionEnd_of_ended ended
  have ended := Machine.stateAt_stable
    (fun process : ServiceProcess => process.acquisitionEnd = some result) later
    (fun _ _ now => ServiceProcess.acquisitionEnd_step now _) ended
  generalize processMachine.stateAt start schedule u = process at early gone late returned ended
  have next : process.stepMainThread.1.mainThread.stage = process.mainThread.stage + 1 := by
    have moves := process.movesMain
    generalize process.stepMainThread = step, process.mainThread = place at moves early late ⊢
    cases moves with
    | stays blocked =>
        unfold ServiceProcess.Blocked at blocked
        split at blocked
        · obtain ⟨c, -, live⟩ := blocked
          exact absurd (gone c) live
        · exact absurd returned blocked
        · cases ended.symm.trans blocked
        · exact absurd le_rfl early
        · exact absurd le_rfl early
        · exact absurd blocked id
    | decides decision =>
        rcases decision.stage with ⟨-, first, -⟩ | ⟨-, next⟩
        · omega
        · exact next
    | storesKeepRunning | stopsSubscriber | notifiesSubscriber | clearsSubscriber | stopsService
    | unsubscribesAll | shutsDown => exact absurd late (by decide)
  omega

end FairProcess

/-- After a signal, or a failure of the subscriber, every fair run of the process gets the
main thread through `stop` for good: gRPC has deleted the reactors, the thread that hands
the packets on has returned, and the thread of the subscriber has ended. -/
theorem process_stops (capacity : ℕ) (subscriberOptions : SubscriberOptions)
    (serverOptions : ServerOptions) (streamOptions : StreamOptions) (schedule : ℕ → ProcessEvent)
    (fair : FairProcess (.start capacity subscriberOptions serverOptions streamOptions) schedule)
    (t : ℕ) (cause : (processMachine.stateAt
      (.start capacity subscriberOptions serverOptions streamOptions) schedule t).Caused) :
    ∃ u, t ≤ u ∧ ∀ v, u ≤ v →
      let process := processMachine.stateAt
        (.start capacity subscriberOptions serverOptions streamOptions) schedule v
      (process.mainThread = .returned ∨ ∃ failure, process.mainThread = .threw failure) ∧
        (∀ c, process.mService.server.reactors c = none) ∧
        process.propagateImportPackets = .returned ∧ process.mSubscriber.Ended := by
  have ordered : (ServiceProcess.start capacity subscriberOptions serverOptions
      streamOptions).Ordered := .start ..
  generalize ServiceProcess.start capacity subscriberOptions serverOptions streamOptions = start
    at fair cause ordered
  obtain ⟨t₁, since₁, left⟩ := fair.eventually_leaves ordered cause
  obtain ⟨t₂, since₂, late⟩ := fair.eventually_shutsDown left
  have left := (FairProcess.later_stateAt since₂ left (Nat.zero_le _)).1
  have off := (FairProcess.ordered_stateAt schedule ordered t₂).flags.keepRunning.mpr
    ((by decide : 1 ≤ 7).trans late)
  obtain ⟨t₃, since₃, returned⟩ := fair.eventually_returns off
  obtain ⟨t₄, since₄, ended⟩ := fair.eventually_ended ordered left ((by decide : 4 ≤ 7).trans late)
  obtain ⟨t₅, since₅, gone⟩ := fair.eventually_drained ordered left late
  -- from here on the main thread waits for nobody
  let t₆ := max t₃ (max t₄ t₅)
  have after₃ : t₃ ≤ t₆ := le_max_left _ _
  have after₄ : t₄ ≤ t₆ := (le_max_left _ _).trans (le_max_right _ _)
  have after₅ : t₅ ≤ t₆ := (le_max_right _ _).trans (le_max_right _ _)
  have returned := Machine.stateAt_stable
    (fun process : ServiceProcess => process.propagateImportPackets = .returned) after₃
    (fun _ _ now => ServiceProcess.returned_step now _) returned
  obtain ⟨result, ended⟩ := ServiceProcess.acquisitionEnd_of_ended ended
  have ended := ServiceProcess.ended_of_acquisitionEnd (Machine.stateAt_stable
    (fun process : ServiceProcess => process.acquisitionEnd = some result) after₄
    (fun _ _ now => ServiceProcess.acquisitionEnd_step now _) ended)
  obtain ⟨left, late⟩ := FairProcess.later_stateAt (since₃.trans after₃) left late
  obtain ⟨u, since, through⟩ := fair.eventually_through left late
    (fun v later => gone v (after₅.trans later)) returned ended
  have later : t ≤ u := since₁.trans (since₂.trans (since₃.trans (after₃.trans since)))
  have left := (FairProcess.later_stateAt since left (Nat.zero_le _)).1
  refine ⟨u, later, fun v after => ?_⟩
  have joins := (FairProcess.ordered_stateAt schedule ordered v).joins
  have through := (FairProcess.later_stateAt after left through).2
  obtain ⟨result, ended⟩ := Option.ne_none_iff_exists'.mp (joins.acquired (joins.taken through))
  exact ⟨MainThread.through_of_stage through, joins.drained (by omega), joins.propagated (by omega),
    ServiceProcess.ended_of_acquisitionEnd ended⟩

def signalledTurn : ℕ → ProcessEvent
  | 0 => .mainThread
  | 1 => .propagateImportPackets
  | 2 => .acquirePackets
  | 3 => .waitReturns
  | 4 => .stepOnReadDone
  | 5 => .onReadDone none
  | 6 => .onDone .cancelled
  | 7 => .proceed 1
  | 8 => .reactor 1 .pass
  | 9 => .reactor 1 (.onWriteDone true)
  | _ => .reactor 1 .onDone

/-- A signal arrives while a client is connected, and everyone takes steps in turn. -/
def signalledSchedule (t : ℕ) : ProcessEvent :=
  if t = 0 then .connect { context := 1, request := .subscribeToAll }
  else if t = 1 then .signal
  else signalledTurn (t % 11)

theorem signalledSchedule_comes {turn : ℕ} (small : turn < 11) (t : ℕ) :
    ∃ u, t ≤ u ∧ signalledSchedule u = signalledTurn turn := by
  refine ⟨11 * (t + 1) + turn, by omega, ?_⟩
  unfold signalledSchedule
  rw [if_neg (by omega), if_neg (by omega), Nat.mul_add_mod, Nat.mod_eq_of_lt small]

theorem signalledSchedule_connects {t : ℕ} {call : IncomingCall}
    (connects : signalledSchedule t = .connect call) : call.context = 1 := by
  unfold signalledSchedule at connects
  split at connects
  · cases connects
    rfl
  · split at connects
    · cases connects
    · unfold signalledTurn at connects
      split at connects <;> cases connects

theorem signalledSchedule_fair :
    FairProcess (.start 8 {} {} {}) signalledSchedule where
  mainThread := signalledSchedule_comes (by decide : 0 < 11)
  propagateImportPackets := signalledSchedule_comes (by decide : 1 < 11)
  acquirePackets := signalledSchedule_comes (by decide : 2 < 11)
  waitReturns := signalledSchedule_comes (by decide : 3 < 11)
  stepOnReadDone := signalledSchedule_comes (by decide : 4 < 11)
  answers := fun t _ => by
    obtain ⟨u, later, comes⟩ := signalledSchedule_comes (by decide : 5 < 11) t
    exact ⟨u, later, none, comes⟩
  ends := fun t _ => by
    obtain ⟨u, later, comes⟩ := signalledSchedule_comes (by decide : 6 < 11) t
    exact ⟨u, later, .cancelled, comes⟩
  clients := fun c t live => by
    have own : c = 1 := by
      by_contra other
      refine live (Machine.stateAt_stable
        (fun process : ServiceProcess => process.mService.server.reactors c = none) (Nat.zero_le t)
        (fun u _ gone => ServiceProcess.gone_step gone fun _ call connects => ?_) rfl)
      exact fun same => other (same.symm.trans (signalledSchedule_connects connects))
    subst own
    exact {
      proceeds := signalledSchedule_comes (by decide : 7 < 11)
      passes := signalledSchedule_comes (by decide : 8 < 11)
      answers := fun t => by
        obtain ⟨u, later, comes⟩ := signalledSchedule_comes (by decide : 9 < 11) t
        exact ⟨u, later, true, comes⟩
      ends := signalledSchedule_comes (by decide : 10 < 11) }

theorem process_stops_once :
    ∃ u, 2 ≤ u ∧ ∀ v, u ≤ v →
      let process := processMachine.stateAt (.start 8 {} {} {}) signalledSchedule v
      (process.mainThread = .returned ∨ ∃ failure, process.mainThread = .threw failure) ∧
        (∀ c, process.mService.server.reactors c = none) ∧
        process.propagateImportPackets = .returned ∧ process.mSubscriber.Ended :=
  process_stops 8 {} {} {} signalledSchedule signalledSchedule_fair 2 (.inl rfl)

end UDataPacketService
