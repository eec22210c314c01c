import UDataPacketService.FinishedCalls

/-! The live reactors of a server whose callbacks are cut at every call of the manager.
Between two steps each of them keeps the discipline of its writes, and it has
something left to do: sections to run, a loop to poll, a write to be answered or an
RPC to be finished. -/
namespace UDataPacketService

/-- The packets that a reactor has taken from the manager and not lost. -/
def Reactor.taken (reactor : Reactor) : List Packet :=
  writtenPackets reactor.calls ++ reactor.waiting

structure Reactor.AtRest (reactor : Reactor) : Prop where
  idle : reactor.mWriteInProgress = false
  none : reactor.outstandingWrites = 0
  quiet : reactor.polling = false

/-- The reactor polls, or a write is in flight, or the RPC is finished. -/
def Reactor.Moving (reactor : Reactor) : Prop :=
  reactor.polling = true ∨ 0 < reactor.outstandingWrites ∨ Finished reactor.calls

structure Steady (reactor : Reactor) (sections : List CallSection) : Prop where
  disciplined : Session.Disciplined reactor reactor.taken
  starting : .startWriting ∈ sections → reactor.AtRest
  moving : .startWriting ∉ sections → reactor.Moving
  ending : .countRemaining ∈ sections → ReactorEvent.onDone.Deliverable reactor

namespace Session
variable {session : Session} {batches : List Packet}

theorem Disciplined.self {reactor : Reactor} (h : Disciplined reactor batches) :
    Disciplined reactor reactor.taken := by
  rw [Reactor.taken, h.account]
  exact h

theorem Disciplined.finish (h : Disciplined session.reactor batches) (status : Status) :
    Disciplined (session.finish status).reactor batches :=
  h.congr rfl rfl (writtenPackets_finish _ _) rfl rfl id

theorem moving_nextWritePass (idle : session.reactor.mWriteInProgress = false)
    (loops : session.reactor.polling = true) : session.nextWritePass.reactor.Moving := by
  rcases nextWritePass_cases idle with ⟨next, -⟩ | ⟨-, next, -⟩ | ⟨packet, rest, -, next, -⟩
  · rw [next, leave_reactor]
    exact .inr (.inr ⟨_, List.mem_append_right _ (List.mem_singleton_self _)⟩)
  · rw [next]
    exact .inl loops
  · rw [next]
    exact .inr (.inl (Nat.succ_pos _))

theorem moving_nextWrite (idle : session.reactor.mWriteInProgress = false) :
    session.nextWrite.reactor.Moving := by
  have entered : session.enterLoop.reactor.mWriteInProgress = false := idle
  exact moving_nextWritePass entered rfl

end Session

namespace Reactor
variable {reactor next : Reactor}

theorem Moving.congr (h : reactor.Moving) (loops : next.polling = reactor.polling)
    (writes : next.outstandingWrites = reactor.outstandingWrites)
    (calls : Finished reactor.calls → Finished next.calls) : next.Moving := by
  rw [Moving, loops, writes]
  exact h.imp_right (Or.imp_right calls)

end Reactor

/-- The loop is entered in the last section of a constructor. -/
theorem Scheduled.startWriting_last {rest : List CallSection}
    (h : Scheduled (.startWriting :: rest)) : rest = [] := by
  rcases h with ⟨call, suffix⟩ | suffix
  · have split := suffix
    simp only [IncomingCall.sections, List.suffix_cons_iff, List.suffix_nil] at split
    simpa using split
  · have member := suffix.subset List.mem_cons_self
    simp at member

namespace Steady
variable {session : Session} {reactor : Reactor} {parts : List CallSection}

theorem congr {next : Reactor} (h : Steady reactor parts)
    (size : next.mMaximumQueueSize = reactor.mMaximumQueueSize)
    (queue : next.mPacketsQueue = reactor.mPacketsQueue) (calls : next.calls = reactor.calls)
    (flag : next.mWriteInProgress = reactor.mWriteInProgress)
    (writes : next.outstandingWrites = reactor.outstandingWrites)
    (loops : next.polling = reactor.polling) : Steady next parts where
  disciplined := (h.disciplined.congr size queue (by rw [calls]) flag writes
    (fun polls => loops ▸ polls)).self
  starting := fun member =>
    have rest := h.starting member
    ⟨flag.trans rest.idle, writes.trans rest.none, loops.trans rest.quiet⟩
  moving := fun member => (h.moving member).congr loops writes (by rw [calls]; exact id)
  ending := fun member => by
    have deliverable := h.ending member
    rw [ReactorEvent.Deliverable] at deliverable ⊢
    rwa [calls, writes, loops]

theorem finish (h : Steady session.reactor parts) (status : Status) :
    Steady (session.finish status).reactor parts where
  disciplined := (h.disciplined.finish status).self
  starting := fun member =>
    have rest := h.starting member
    ⟨rest.idle, rest.none, rest.quiet⟩
  moving := fun member => (h.moving member).congr rfl rfl
    (fun ⟨before, there⟩ => ⟨before, List.mem_append_left _ there⟩)
  ending := fun member => by
    obtain ⟨finished, none, quiet⟩ := h.ending member
    refine ⟨?_, none, quiet⟩
    rw [Session.finish, List.any_append, finished, Bool.true_or]

theorem subscribeTo (h : Steady session.reactor parts) (request : Request) :
    Steady (session.subscribeTo request).reactor parts := by
  cases request with
  | subscribeToAll => exact h.congr rfl rfl rfl rfl rfl rfl
  | subscribe selections =>
      have finish_if {next : Session} (steady : Steady next.reactor parts) (status : Status)
          (P : Prop) [Decidable P] :
          Steady (if P then next.finish status else next).reactor parts := by
        split
        · exact steady.finish status
        · exact steady
      have checked := finish_if (finish_if h .noStreamsSpecified (selections = []))
        .noStreamsCreated (SubscriptionManager.distinctIdentifiers selections = [])
      simp only [Session.subscribeTo]
      split
      · exact checked.congr rfl rfl rfl rfl rfl rfl
      · exact checked.finish _

theorem runSection {part : CallSection} {rest : List CallSection}
    (h : Steady session.reactor (part :: rest)) (scheduled : Scheduled (part :: rest)) :
    Steady (session.runSection part).reactor rest := by
  have fewer (other : part ≠ .startWriting) : Steady session.reactor rest :=
    ⟨h.disciplined, fun member => h.starting (List.mem_cons_of_mem _ member),
      fun member => h.moving (fun here => (List.mem_cons.mp here).elim (fun same => other same.symm)
        member),
      fun member => h.ending (List.mem_cons_of_mem _ member)⟩
  cases part with
  | checkCapacity =>
      have steady := fewer (by simp)
      simp only [Session.runSection, Session.checkCapacity]
      split
      · exact steady.finish _
      · exact steady
  | subscribe request => exact (fewer (by simp)).subscribeTo request
  | countSubscribers =>
      have steady := fewer (by simp)
      simp only [Session.runSection, Session.countSubscribers]
      split
      · exact steady
      · exact steady
  | startWriting =>
      have atRest := h.starting List.mem_cons_self
      obtain rfl : rest = [] := scheduled.startWriting_last
      exact ⟨(h.disciplined.nextWrite atRest.idle atRest.none).self, fun member => absurd member
        List.not_mem_nil, fun _ => Session.moving_nextWrite atRest.idle,
        fun member => absurd member List.not_mem_nil⟩
  | unsubscribe =>
      simp only [Session.runSection, Session.unsubscribe_reactor]
      exact (fewer (by simp)).congr rfl rfl rfl rfl rfl rfl
  | countRemaining => exact (fewer (by simp)).congr rfl rfl rfl rfl rfl rfl

theorem cancel (h : Steady session.reactor parts) :
    Steady (session.react .cancel).reactor parts := by
  unfold Session.react
  split
  · exact h
  · exact h.congr rfl rfl rfl rfl rfl rfl

/-- A callback of a reactor without sections leaves it something to do. -/
theorem moving_react (h : Steady session.reactor []) (event : ReactorEvent) :
    (session.react event).reactor.Moving := by
  have moving := h.moving List.not_mem_nil
  unfold Session.react
  split
  · exact moving
  · rename_i live
    obtain ⟨-, deliverable⟩ := not_or.mp live
    rw [not_not] at deliverable
    cases event with
    | cancel => exact moving.congr rfl rfl id
    | pass => exact Session.moving_nextWritePass (h.disciplined.polling deliverable).1 deliverable
    | onWriteDone ok =>
        cases ok with
        | true => exact Session.moving_nextWrite rfl
        | false =>
            refine .inr (.inr ?_)
            simp only [Session.onWriteDone, Bool.false_eq_true, if_false]
            split
            · exact ⟨_, List.mem_append_right _ (List.mem_singleton_self _)⟩
            · exact ⟨_, List.mem_append_right _ (List.mem_singleton_self _)⟩
    | onCancel =>
        simp only [Session.onCancel, Session.unsubscribe_reactor]
        exact moving.congr rfl rfl id
    | onDone =>
        simp only [Session.onDone, Session.getNumberOfSubscribers_reactor,
          Session.unsubscribe_reactor]
        exact moving.congr rfl rfl id

theorem react (h : Steady session.reactor []) (event : ReactorEvent) :
    Steady (session.react event).reactor [] where
  disciplined := (h.disciplined.react event).self
  starting := fun member => absurd member List.not_mem_nil
  moving := fun _ => h.moving_react event
  ending := fun member => absurd member List.not_mem_nil

theorem arrive (service : Service) (call : IncomingCall) :
    Steady (Session.arrive service call).reactor call.sections := by
  have fresh : Steady (⟨service, { mContextAddress := call.context
                                   isCancelled := call.isCancelled }⟩ : Session).reactor
      call.sections :=
    ⟨⟨rfl, Nat.zero_le 1, nofun, nofun, nofun, rfl⟩, fun _ => ⟨rfl, rfl, rfl⟩,
      fun member => absurd (by simp [IncomingCall.sections]) member,
      fun member => absurd member (by simp [IncomingCall.sections])⟩
  rw [Session.arrive, Session.authenticate_eq]
  split
  · exact fresh.finish _
  · exact fresh

end Steady

namespace Session
variable {session : Session}

theorem Moves.running {next : Session} (moves : session.Moves next) :
    next.service.mKeepRunning = session.service.mKeepRunning := by
  induction moves with
  | refl => rfl
  | tail _ move ih =>
      rw [← ih]
      cases move with
      | note | finish | startWrite | getNumberOfSubscribers | fetchPackets => rfl
      | unsubscribe =>
          unfold Session.unsubscribe
          split <;> rfl

theorem running_subscribeTo (request : Request) :
    (session.subscribeTo request).service.mKeepRunning = session.service.mKeepRunning := by
  cases request with
  | subscribeToAll => rfl
  | subscribe selections =>
      have finish_if (next : Session) (status : Status) (P : Prop) [Decidable P] :
          (if P then next.finish status else next).service = next.service := by
        split <;> rfl
      have checked := (finish_if _ .noStreamsCreated
        (SubscriptionManager.distinctIdentifiers selections = [])).trans
          (finish_if session .noStreamsSpecified (selections = []))
      simp only [subscribeTo]
      split
      · exact (congrArg Service.mKeepRunning checked :)
      · exact (congrArg Service.mKeepRunning checked :)

theorem running_runSection (part : CallSection) :
    (session.runSection part).service.mKeepRunning = session.service.mKeepRunning := by
  cases part with
  | checkCapacity =>
      simp only [runSection, checkCapacity]
      split <;> rfl
  | subscribe request => exact running_subscribeTo request
  | countSubscribers =>
      simp only [runSection, countSubscribers]
      split <;> rfl
  | startWriting => exact (moves_nextWrite session).running
  | unsubscribe => exact Moves.running (.single (.unsubscribe session))
  | countRemaining => rfl

end Session

def CallEvent.operation : CallEvent → Option Operation
  | .enqueuePacket packet => some (.enqueuePacket packet)
  | .unsubscribeAll => some .unsubscribeAll
  | _ => none

def CallEvent.Helps (c : ContextAddress) (reactor : Reactor) :
    List CallSection → CallEvent → Prop
  | _ :: _, event => event = .proceed c
  | [], event =>
      if reactor.polling then event = .reactor c .pass
      else if 0 < reactor.outstandingWrites then ∃ ok, event = .reactor c (.onWriteDone ok)
      else event = .reactor c .onDone

namespace CallEvent.Helps
variable {c : ContextAddress} {reactor : Reactor} {parts : List CallSection} {event : CallEvent}

theorem of_nil (h : event.Helps c reactor []) : ∃ callback, event = .reactor c callback := by
  simp only [CallEvent.Helps] at h
  split at h
  · exact ⟨_, h⟩
  · split at h
    · obtain ⟨ok, same⟩ := h
      exact ⟨_, same⟩
    · exact ⟨_, h⟩

theorem own (h : event.Helps c reactor parts) :
    event = .proceed c ∨ ∃ callback, event = .reactor c callback := by
  cases parts with
  | nil => exact .inr h.of_nil
  | cons part rest => exact .inl h

/-- gRPC can deliver the callback that takes a steady reactor on. -/
theorem deliverable {d : ContextAddress} {callback : ReactorEvent}
    (h : (CallEvent.reactor d callback).Helps c reactor parts) (steady : Steady reactor parts) :
    d = c ∧ parts = [] ∧ callback.Deliverable reactor := by
  cases parts with
  | cons part rest => cases h
  | nil =>
      simp only [CallEvent.Helps] at h
      split at h
      · rename_i polls
        obtain ⟨rfl, rfl⟩ := CallEvent.reactor.inj h
        exact ⟨rfl, rfl, polls⟩
      · rename_i quiet
        rw [Bool.not_eq_true] at quiet
        split at h
        · rename_i pending
          obtain ⟨ok, same⟩ := h
          obtain ⟨rfl, rfl⟩ := CallEvent.reactor.inj same
          exact ⟨rfl, rfl, pending, quiet⟩
        · rename_i none
          obtain ⟨rfl, rfl⟩ := CallEvent.reactor.inj h
          have finished : Finished reactor.calls := by
            rcases steady.moving List.not_mem_nil with polls | pending | finished
            · exact absurd (quiet.symm.trans polls) Bool.false_ne_true
            · exact absurd pending none
            · exact finished
          exact ⟨rfl, rfl, (finished_iff_any _).mpr finished, Nat.eq_zero_of_not_pos none, quiet⟩

end CallEvent.Helps

/-- What a step of the server is for one live reactor. -/
inductive BusyServer.StepAt (busy : BusyServer) (c : ContextAddress) (reactor : Reactor) :
    CallEvent → BusyServer → Prop where
  /-- The step is another reactor's, or the reactor does not take the event. -/
  | stays {event : CallEvent} {next : BusyServer} (there : next.server.reactors c = some reactor)
      (sections : next.sections c = busy.sections c)
      (view : next.manager.view c = busy.manager.view c)
      (running : next.server.service.mKeepRunning = busy.server.service.mKeepRunning)
      (quiet : event.operation = none)
      (noHelp : ¬event.Helps c reactor (busy.sections c)) : StepAt busy c reactor event next
  | arrives (packet : Packet) :
      StepAt busy c reactor (.enqueuePacket packet) (busy.operate (.enqueuePacket packet))
  | purges : StepAt busy c reactor .unsubscribeAll (busy.operate .unsubscribeAll)
  | stops : StepAt busy c reactor .stopServer { busy with
      server := { busy.server with service := { busy.server.service with mKeepRunning := false } } }
  /-- The next section of the reactor runs. -/
  | proceeds (part : CallSection) (rest : List CallSection)
      (sections : busy.sections c = part :: rest) :
      StepAt busy c reactor (.proceed c) (busy.proceed c)
  /-- A callback other than `OnDone` runs, or the client cancels. -/
  | reacts (event : ReactorEvent) (deliverable : event.Deliverable reactor)
      (other : event ≠ .onDone) (idle : event ≠ .cancel → busy.sections c = []) :
      StepAt busy c reactor (.reactor c event) { busy with server := busy.server.react c event }
  /-- `OnDone` is delivered, and its sections are still to run. -/
  | ends (idle : busy.sections c = []) (deliverable : ReactorEvent.onDone.Deliverable reactor) :
      StepAt busy c reactor (.reactor c .onDone) { busy with
        sections := Function.update busy.sections c [.unsubscribe, .countRemaining] }

namespace BusyServer
variable {busy : BusyServer} {c d : ContextAddress} {reactor : Reactor}

theorem StepAt.of_update (there : busy.server.reactors c = some reactor) (apart : c ≠ d)
    (service : Service) (parts : List CallSection) (last : Option Reactor) {event : CallEvent}
    (view : service.mSubscriptionManager.view c = busy.manager.view c)
    (running : service.mKeepRunning = busy.server.service.mKeepRunning)
    (quiet : event.operation = none)
    (noHelp : ¬event.Helps c reactor (busy.sections c)) :
    busy.StepAt c reactor event
      { server := ⟨service, Function.update busy.server.reactors d last⟩
        sections := Function.update busy.sections d parts } :=
  .stays ((Function.update_of_ne apart _ _).trans there) (Function.update_of_ne apart _ _) view
    running quiet noHelp

theorem Tidy.stepAt_connect (there : busy.server.reactors c = some reactor) (call : IncomingCall) :
    busy.StepAt c reactor (.connect call) (busy.connect call) := by
  have noHelp : ¬CallEvent.Helps c reactor (busy.sections c) (.connect call) := by
    intro helps
    rcases helps.own with same | ⟨event, same⟩ <;> cases same
  unfold BusyServer.connect
  split
  · exact .stays there rfl rfl rfl rfl noHelp
  · rename_i free
    have apart : c ≠ call.context := by
      rintro rfl
      cases free.symm.trans there
    exact .of_update there apart busy.server.service _ _ rfl rfl rfl noHelp

theorem Tidy.stepAt_proceed (h : busy.Tidy) (there : busy.server.reactors c = some reactor)
    (d : ContextAddress) : busy.StepAt c reactor (.proceed d) (busy.proceed d) := by
  by_cases own : c = d
  · subst own
    cases sections : busy.sections c with
    | cons part rest => exact .proceeds part rest sections
    | nil =>
        simp only [BusyServer.proceed, there, sections]
        refine .stays there rfl rfl rfl rfl (fun helps => ?_)
        rw [sections] at helps
        obtain ⟨event, same⟩ := helps.of_nil
        cases same
  · have noHelp : ¬CallEvent.Helps c reactor (busy.sections c) (.proceed d) := by
      intro helps
      rcases helps.own with same | ⟨event, same⟩
      · exact own (CallEvent.proceed.inj same).symm
      · cases same
    cases found : busy.server.reactors d with
    | none =>
        simp only [BusyServer.proceed, found]
        exact .stays there rfl rfl rfl rfl noHelp
    | some other =>
        cases sections : busy.sections d with
        | nil =>
            simp only [BusyServer.proceed, found, sections]
            exact .stays there rfl rfl rfl rfl noHelp
        | cons part rest =>
            rw [proceed_of_live found sections]
            have confined := (h.owned_reactor found).confined_runSection part
            have apart : c ≠ other.mContextAddress := by
              rw [(h.live d other found).1]
              exact own
            exact .of_update there own
              (Session.runSection ⟨busy.server.service, other⟩ part).service _ _
              (confined.others c apart) (Session.running_runSection part) rfl noHelp

/-- A callback that is not deliverable, or another reactor's. -/
theorem Tidy.stepAt_react_server (h : busy.Tidy) (there : busy.server.reactors c = some reactor)
    {event : ReactorEvent} (other : event ≠ .onDone)
    (idle : event ≠ .cancel → d = c → busy.sections c = [])
    (taken : d = c → CallEvent.Helps c reactor (busy.sections c) (.reactor d event) →
      event.Deliverable reactor) :
    busy.StepAt c reactor (.reactor d event) { busy with server := busy.server.react d event } := by
  by_cases own : c = d
  · subst own
    by_cases deliverable : event.Deliverable reactor
    · exact .reacts event deliverable other (fun some_ => idle some_ rfl)
    · have same : Session.react ⟨busy.server.service, reactor⟩ event =
          ⟨busy.server.service, reactor⟩ := by
        exact if_pos (.inr deliverable)
      rw [Server.react_of_live event there, same]
      refine .stays ?_ rfl rfl rfl rfl (fun helps => deliverable (taken rfl helps))
      change Function.update _ _ _ _ = _
      rw [Function.update_self, if_neg (by rw [(h.live c reactor there).2]; exact Bool.false_ne_true)]
  · have noHelp : ¬CallEvent.Helps c reactor (busy.sections c) (.reactor d event) := by
      intro helps
      rcases helps.own with same | ⟨event, same⟩
      · cases same
      · exact own (CallEvent.reactor.inj same).1.symm
    cases found : busy.server.reactors d with
    | none =>
        simp only [Server.react, found]
        exact .stays there rfl rfl rfl rfl noHelp
    | some last =>
        have moves := Session.moves_react ⟨busy.server.service, last⟩ event
        have confined := (h.owned_reactor found).confined moves
        have apart : c ≠ last.mContextAddress := by
          rw [(h.live d last found).1]
          exact own
        have step := StepAt.of_update there own (Session.react ⟨busy.server.service, last⟩ event).service
          (busy.sections d) (if (Session.react ⟨busy.server.service, last⟩ event).reactor.done then none
            else some (Session.react ⟨busy.server.service, last⟩ event).reactor)
          (confined.others c apart) moves.running rfl noHelp
        rwa [Function.update_eq_self, ← Server.react_of_live event found] at step

/-- Every step of a tidy server is one of these for a live reactor that is steady. -/
theorem Tidy.stepAt (h : busy.Tidy) (there : busy.server.reactors c = some reactor)
    (steady : Steady reactor (busy.sections c)) (event : CallEvent) :
    busy.StepAt c reactor event (callMachine.step busy event).1 := by
  cases event with
  | enqueuePacket packet => exact .arrives packet
  | unsubscribeAll => exact .purges
  | stopServer => exact .stops
  | connect call => exact Tidy.stepAt_connect there call
  | proceed d => exact h.stepAt_proceed there d
  | reactor d event =>
      change busy.StepAt c reactor _ (busy.react d event)
      have refused (blocked : d = c → busy.sections c = [] → ¬event.Deliverable reactor) :
          busy.StepAt c reactor (.reactor d event) busy := by
        refine .stays there rfl rfl rfl rfl (fun helps => ?_)
        obtain ⟨rfl, idle, deliverable⟩ := helps.deliverable steady
        exact blocked rfl idle deliverable
      have callback (other : event ≠ .onDone) (idle : event ≠ .cancel → busy.sections d = []) :=
        h.stepAt_react_server there other (fun some_ own => own ▸ idle some_)
          (fun own helps => (helps.deliverable steady).2.2)
      cases event with
      | cancel => exact callback (by simp) (fun some_ => absurd rfl some_)
      | onDone =>
          simp only [BusyServer.react]
          split
          · rename_i none
            refine refused (fun own => ?_)
            subst own
            cases none.symm.trans there
          · rename_i found
            by_cases own : d = c
            · subst own
              obtain rfl := Option.some.inj (found.symm.trans there)
              split
              · rename_i both
                exact .ends both.1 both.2
              · rename_i neither
                exact refused (fun _ idle deliverable => neither ⟨idle, deliverable⟩)
            · split
              · have noHelp : ¬CallEvent.Helps c reactor (busy.sections c) (.reactor d .onDone) :=
                  fun helps => own (helps.deliverable steady).1
                exact .stays there (Function.update_of_ne (Ne.symm own) _ _) rfl rfl rfl noHelp
              · exact refused (fun same => absurd same own)
      | pass | onWriteDone | onCancel =>
          simp only [BusyServer.react]
          split
          · rename_i idle
            exact callback (by simp) (fun _ => idle)
          · rename_i waiting
            exact refused (fun own idle => absurd (own ▸ idle) waiting)

theorem connected_of_none (gone : busy.server.reactors c = none) {event : CallEvent}
    (there : (callMachine.step busy event).1.server.reactors c = some reactor) :
    ∃ call : IncomingCall, event = .connect call ∧ call.context = c ∧
      reactor = (Session.arrive busy.server.service call).reactor ∧
      (callMachine.step busy event).1.sections c = call.sections := by
  have server_react {d : ContextAddress} {event : ReactorEvent}
      (there : (busy.server.react d event).reactors c = some reactor) : False := by
    unfold Server.react at there
    split at there
    · cases gone.symm.trans there
    · rename_i last found
      change Function.update _ _ _ _ = _ at there
      by_cases own : c = d
      · subst own
        cases gone.symm.trans found
      · rw [Function.update_of_ne own] at there
        cases gone.symm.trans there
  cases event with
  | connect call =>
      change (busy.connect call).server.reactors c = some reactor at there
      cases free : busy.server.reactors call.context with
      | some other =>
          simp only [BusyServer.connect, free] at there
          cases gone.symm.trans there
      | none =>
          have opened : busy.connect call =
              { server := ⟨busy.server.service, Function.update busy.server.reactors call.context
                  (some (Session.arrive busy.server.service call).reactor)⟩
                sections := Function.update busy.sections call.context call.sections } := by
            simp only [BusyServer.connect, free]
          rw [opened] at there
          change Function.update _ _ _ _ = _ at there
          by_cases own : c = call.context
          · subst own
            rw [Function.update_self] at there
            refine ⟨call, rfl, rfl, (Option.some.inj there).symm, ?_⟩
            change (busy.connect call).sections _ = _
            rw [opened]
            exact Function.update_self _ _ _
          · rw [Function.update_of_ne own] at there
            cases gone.symm.trans there
  | proceed d =>
      change (busy.proceed d).server.reactors c = some reactor at there
      unfold BusyServer.proceed at there
      split at there
      · rename_i last part rest found _
        change Function.update _ _ _ _ = _ at there
        by_cases own : c = d
        · subst own
          cases gone.symm.trans found
        · rw [Function.update_of_ne own] at there
          cases gone.symm.trans there
      · cases gone.symm.trans there
  | reactor d event =>
      change (busy.react d event).server.reactors c = some reactor at there
      unfold BusyServer.react at there
      split at there
      · exact (server_react there).elim
      · split at there
        · cases gone.symm.trans there
        · split at there <;> cases gone.symm.trans there
      · split at there
        · exact (server_react there).elim
        · cases gone.symm.trans there
  | enqueuePacket packet => cases gone.symm.trans there
  | unsubscribeAll => cases gone.symm.trans there
  | stopServer => cases gone.symm.trans there

theorem none_step (gone : busy.server.reactors c = none) {event : CallEvent}
    (once : ∀ call, event = .connect call → call.context ≠ c) :
    (callMachine.step busy event).1.server.reactors c = none := by
  cases left : (callMachine.step busy event).1.server.reactors c with
  | none => rfl
  | some reactor =>
      obtain ⟨call, connects, own, -, -⟩ := connected_of_none gone left
      exact absurd own (once call connects)

/-- The server is tidy, and its live reactors are steady. -/
structure Regular (busy : BusyServer) : Prop where
  tidy : busy.Tidy
  steady : ∀ c reactor, busy.server.reactors c = some reactor → Steady reactor (busy.sections c)

theorem StepAt.steady {event : CallEvent} {next : BusyServer} {after : Reactor}
    (step : busy.StepAt c reactor event next) (there : busy.server.reactors c = some reactor)
    (steady : Steady reactor (busy.sections c)) (scheduled : Scheduled (busy.sections c))
    (left : next.server.reactors c = some after) : Steady after (next.sections c) := by
  have own : Steady (⟨busy.server.service, reactor⟩ : Session).reactor (busy.sections c) := steady
  have unchanged (sections : next.sections c = busy.sections c)
      (same : next.server.reactors c = some reactor) : Steady after (next.sections c) := by
    obtain rfl := Option.some.inj (same.symm.trans left)
    rwa [sections]
  cases step with
  | stays there sections => exact unchanged sections there
  | arrives => exact unchanged rfl there
  | purges => exact unchanged rfl there
  | stops => exact unchanged rfl there
  | proceeds part rest sections =>
      rw [proceed_of_live there sections] at left ⊢
      change Function.update _ _ _ _ = _ at left
      change Steady after (Function.update busy.sections c rest c)
      rw [Function.update_self] at left ⊢
      split at left
      · cases left
      · obtain rfl := Option.some.inj left
        rw [sections] at own scheduled
        exact own.runSection scheduled
  | reacts event deliverable other idle =>
      change (busy.server.react c event).reactors c = _ at left
      change Steady after (busy.sections c)
      rw [Server.react_of_live event there] at left
      change Function.update _ _ _ _ = _ at left
      rw [Function.update_self] at left
      split at left
      · cases left
      · obtain rfl := Option.some.inj left
        by_cases cancels : event = .cancel
        · rw [cancels]
          exact own.cancel
        · rw [idle cancels] at own ⊢
          exact own.react event
  | ends idle deliverable =>
      obtain rfl := Option.some.inj (there.symm.trans left)
      change Steady _ (Function.update busy.sections c [.unsubscribe, .countRemaining] c)
      rw [Function.update_self]
      rw [idle] at steady
      exact ⟨steady.disciplined, fun member => absurd member (by simp),
        fun _ => steady.moving List.not_mem_nil, fun _ => deliverable⟩

theorem Regular.step (h : busy.Regular) (event : CallEvent) :
    (callMachine.step busy event).1.Regular := by
  refine ⟨(h.tidy.step event).tidy, fun c after left => ?_⟩
  cases there : busy.server.reactors c with
  | none =>
      obtain ⟨call, -, rfl, rfl, sections⟩ := connected_of_none there left
      rw [sections]
      exact .arrive busy.server.service call
  | some reactor =>
      have steady := h.steady c reactor there
      exact (h.tidy.stepAt there steady event).steady there steady (h.tidy.scheduled c) left

theorem start_regular (options : ServerOptions) (streamOptions : StreamOptions) :
    (start options streamOptions).Regular :=
  ⟨start_tidy options streamOptions, nofun⟩

theorem run_regular (options : ServerOptions) (streamOptions : StreamOptions)
    (events : List CallEvent) : (callMachine.run (start options streamOptions) events).Regular :=
  callMachine.run_invariant Regular (fun _ event h => h.step event)
    (start_regular options streamOptions) events

end BusyServer

end UDataPacketService
