import UDataPacketService.SteadyReactors
import UDataPacketService.FairRuns

/-! The server after `stop` has cleared its flag. Nothing is written any more, every
reactor leaves its loop, finishes its RPC and is deleted, and at the end no subscriber
is left in the manager. -/
namespace UDataPacketService

namespace Session
variable {session : Session}

/-- A loop that finds the flag cleared makes no pass. -/
theorem nextWritePass_of_stopped (stopped : session.service.mKeepRunning = false) :
    session.nextWritePass = session.leave := by
  rw [nextWritePass, stopped]
  exact if_pos rfl

theorem leave_quiet (session : Session) : session.leave.reactor.polling = false ∧
    session.leave.reactor.outstandingWrites = session.reactor.outstandingWrites := by
  rw [leave_reactor]
  exact ⟨rfl, rfl⟩

end Session

namespace BusyServer
variable {busy : BusyServer} {c : ContextAddress} {reactor : Reactor}

def Stopped (busy : BusyServer) : Prop := busy.server.service.mKeepRunning = false

theorem running_react (d : ContextAddress) (event : ReactorEvent) :
    (busy.server.react d event).service.mKeepRunning = busy.server.service.mKeepRunning := by
  unfold Server.react
  split
  · rfl
  · exact (Session.moves_react _ event).running

theorem Stopped.step (h : busy.Stopped) (event : CallEvent) :
    (callMachine.step busy event).1.Stopped := by
  cases event with
  | connect call =>
      change (busy.connect call).Stopped
      unfold BusyServer.connect
      split <;> exact h
  | proceed d =>
      change (busy.proceed d).Stopped
      unfold BusyServer.proceed
      split
      · exact (Session.running_runSection _).trans h
      · exact h
  | reactor d event =>
      change (busy.react d event).Stopped
      unfold BusyServer.react
      split
      · exact (running_react d _).trans h
      · split
        · exact h
        · split <;> exact h
      · split
        · exact (running_react d _).trans h
        · exact h
  | enqueuePacket packet => exact h
  | unsubscribeAll => exact h
  | stopServer => exact rfl

def writtenBy (c : ContextAddress) (busy : BusyServer) : List Packet :=
  match busy.server.reactors c with
  | none => []
  | some reactor => writtenPackets reactor.calls

theorem writtenBy_of_live (there : busy.server.reactors c = some reactor) :
    busy.writtenBy c = writtenPackets reactor.calls := by
  simp only [writtenBy, there]

def stepsLeft (reactor : Reactor) : List CallSection → ℕ
  | [] => if reactor.polling then 5 else if 0 < reactor.outstandingWrites then 4 else 3
  | part :: rest =>
      if .startWriting ∈ part :: rest then 6 + rest.length else 1 + rest.length

def stoppedRank (c : ContextAddress) (busy : BusyServer) : ℕ :=
  match busy.server.reactors c with
  | none => 0
  | some reactor => stepsLeft reactor (busy.sections c)

def HelpsAt (c : ContextAddress) (busy : BusyServer) (event : CallEvent) : Prop :=
  match busy.server.reactors c with
  | none => True
  | some reactor => event.Helps c reactor (busy.sections c)

theorem stoppedRank_of_live (there : busy.server.reactors c = some reactor) :
    busy.stoppedRank c = stepsLeft reactor (busy.sections c) := by
  simp only [stoppedRank, there]

theorem helpsAt_of_live (there : busy.server.reactors c = some reactor) :
    busy.HelpsAt c = CallEvent.Helps c reactor (busy.sections c) := by
  funext event
  simp only [HelpsAt, there]

theorem stepsLeft_pos (reactor : Reactor) (parts : List CallSection) :
    0 < stepsLeft reactor parts := by
  cases parts with
  | nil =>
      simp only [stepsLeft]
      split
      · omega
      · split <;> omega
  | cons part rest =>
      simp only [stepsLeft]
      split <;> omega

theorem stepsLeft_congr {next : Reactor} (loops : next.polling = reactor.polling)
    (writes : next.outstandingWrites = reactor.outstandingWrites) (parts : List CallSection) :
    stepsLeft next parts = stepsLeft reactor parts := by
  cases parts with
  | nil => simp only [stepsLeft, loops, writes]
  | cons part rest => rfl

theorem helps_congr {next : Reactor} (loops : next.polling = reactor.polling)
    (writes : next.outstandingWrites = reactor.outstandingWrites) (parts : List CallSection) :
    CallEvent.Helps c next parts = CallEvent.Helps c reactor parts := by
  funext event
  cases parts with
  | nil => simp only [CallEvent.Helps, loops, writes]
  | cons part rest => rfl

theorem stepsLeft_of_quiet (quiet : reactor.polling = false) (none : reactor.outstandingWrites = 0) :
    stepsLeft reactor [] = 3 := by
  simp only [stepsLeft, quiet, none]
  rfl

theorem scheduled_of_ending {part : CallSection} {rest : List CallSection}
    (h : Scheduled (part :: rest)) (ending : .startWriting ∉ part :: rest) :
    rest = [.countRemaining] ∨ part = .countRemaining := by
  rcases h with ⟨call, suffix⟩ | suffix
  · -- a suffix of a constructor that is not empty ends with `startWriting`
    have last := suffix.getLast (List.cons_ne_nil part rest)
    refine absurd ?_ ending
    rw [show call.sections.getLast _ = CallSection.startWriting from rfl] at last
    exact last ▸ List.getLast_mem _
  · rcases List.suffix_cons_iff.mp suffix with whole | shorter
    · exact .inl (List.cons.inj whole).2
    · rcases List.suffix_cons_iff.mp shorter with single | nothing
      · exact .inr (List.cons.inj single).1
      · cases List.suffix_nil.mp nothing

/-- Every section of a stopped server takes the reactor on. -/
theorem stepsLeft_runSection {session : Session} (stopped : session.service.mKeepRunning = false)
    {part : CallSection} {rest : List CallSection}
    (steady : Steady session.reactor (part :: rest)) (scheduled : Scheduled (part :: rest))
    (live : (session.runSection part).reactor.done = false) :
    stepsLeft (session.runSection part).reactor rest < stepsLeft session.reactor (part :: rest) := by
  by_cases starts : .startWriting ∈ part :: rest
  · rw [stepsLeft, if_pos starts]
    by_cases last : part = .startWriting
    · subst last
      have atRest := steady.starting List.mem_cons_self
      obtain rfl := scheduled.startWriting_last
      have next : session.runSection .startWriting = session.enterLoop.leave :=
        Session.nextWritePass_of_stopped stopped
      rw [next, stepsLeft_of_quiet session.enterLoop.leave_quiet.1
        (session.enterLoop.leave_quiet.2.trans atRest.none)]
      omega
    · have behind : .startWriting ∈ rest :=
        (List.mem_cons.mp starts).resolve_left (fun same => last same.symm)
      cases rest with
      | nil => cases behind
      | cons second rest =>
          rw [stepsLeft, if_pos behind, List.length_cons]
          omega
  · rw [stepsLeft, if_neg starts]
    rcases scheduled_of_ending scheduled starts with rfl | rfl
    · simp [stepsLeft]
    · exact absurd live (by simp [Session.runSection])

theorem react_of_ignored (session : Session) {event : ReactorEvent}
    (ignored : event = .cancel ∨ event = .onCancel) :
    (session.react event).reactor.polling = session.reactor.polling ∧
      (session.react event).reactor.outstandingWrites = session.reactor.outstandingWrites := by
  unfold Session.react
  split
  · exact ⟨rfl, rfl⟩
  · rcases ignored with rfl | rfl
    · exact ⟨rfl, rfl⟩
    · simp only [Session.onCancel, Session.unsubscribe_reactor]
      exact ⟨trivial, trivial⟩

theorem not_helps_of_ignored {event : ReactorEvent} (ignored : event = .cancel ∨ event = .onCancel)
    (parts : List CallSection) : ¬(CallEvent.reactor c event).Helps c reactor parts := by
  intro helps
  cases parts with
  | nil =>
      simp only [CallEvent.Helps] at helps
      rcases ignored with rfl | rfl
      · split at helps
        · cases helps
        · split at helps
          · obtain ⟨ok, same⟩ := helps
            cases same
          · cases helps
      · split at helps
        · cases helps
        · split at helps
          · obtain ⟨ok, same⟩ := helps
            cases same
          · cases helps
  | cons part rest => cases helps

theorem stepsLeft_react {session : Session} (stopped : session.service.mKeepRunning = false)
    (steady : Steady session.reactor []) {event : ReactorEvent}
    (live : session.reactor.done = false) (deliverable : event.Deliverable session.reactor)
    (other : event ≠ .onDone) (taken : ¬(event = .cancel ∨ event = .onCancel)) :
    stepsLeft (session.react event).reactor [] < stepsLeft session.reactor [] := by
  have delivered : ¬(session.reactor.done = true ∨ ¬event.Deliverable session.reactor) := by
    rw [live]
    simpa using deliverable
  unfold Session.react
  rw [if_neg delivered]
  cases event with
  | cancel => exact absurd (.inl rfl) taken
  | pass =>
      have polls : session.reactor.polling = true := deliverable
      have none := (steady.disciplined.polling polls).2
      simp only [Session.nextWritePass_of_stopped stopped]
      rw [stepsLeft_of_quiet session.leave_quiet.1 (session.leave_quiet.2.trans none), stepsLeft,
        if_pos polls]
      omega
  | onWriteDone ok =>
      obtain ⟨pending, quiet⟩ := deliverable
      have last : session.reactor.outstandingWrites - 1 = 0 := by
        have := steady.disciplined.single
        omega
      have before : stepsLeft session.reactor [] = 4 := by
        simp only [stepsLeft, quiet, pending, Bool.false_eq_true, if_false, if_true]
      have after : stepsLeft (session.answerWrite.onWriteDone ok).reactor [] = 3 := by
        cases ok with
        | true =>
            have next : session.answerWrite.onWriteDone true = Session.leave (Session.enterLoop
                { session.answerWrite with reactor := { session.answerWrite.reactor with
                    mWriteInProgress := false
                    mPacketsQueue := session.answerWrite.reactor.mPacketsQueue.tail } }) :=
              Session.nextWritePass_of_stopped stopped
            rw [next]
            exact stepsLeft_of_quiet (Session.leave_quiet _).1 ((Session.leave_quiet _).2.trans last)
        | false =>
            simp only [Session.onWriteDone, Bool.false_eq_true, if_false]
            split
            · exact stepsLeft_of_quiet quiet last
            · exact stepsLeft_of_quiet quiet last
      simp only [before, after]
      omega
  | onCancel => exact absurd (.inr rfl) taken
  | onDone => exact absurd rfl other

/-- A step of a stopped server takes a reactor towards its end, or leaves what takes it on. -/
theorem Stopped.progress (h : busy.Stopped) (regular : busy.Regular) (event : CallEvent) :
    Machine.RankProgress (fun busy : BusyServer => busy.server.reactors c = none) (stoppedRank c)
      (HelpsAt c) busy (callMachine.step busy event).1 event := by
  intro some_
  obtain ⟨reactor, there⟩ := Option.ne_none_iff_exists'.mp some_
  have steady := regular.steady c reactor there
  have stopped : (⟨busy.server.service, reactor⟩ : Session).service.mKeepRunning = false := h
  have live := (regular.tidy.live c reactor there).2
  have step := regular.tidy.stepAt there steady event
  rw [stoppedRank_of_live there, helpsAt_of_live there]
  generalize (callMachine.step busy event).1 = next at step
  have gone (left : next.server.reactors c = none) :
      stoppedRank c next < stepsLeft reactor (busy.sections c) := by
    simp only [stoppedRank, left]
    exact stepsLeft_pos reactor _
  have same (left : next.server.reactors c = some reactor)
      (sections : next.sections c = busy.sections c) :
      stoppedRank c next = stepsLeft reactor (busy.sections c) ∧
        next.HelpsAt c = CallEvent.Helps c reactor (busy.sections c) := by
    rw [stoppedRank_of_live left, helpsAt_of_live left, sections]
    exact ⟨rfl, rfl⟩
  have foreign (quiet : ∀ callback, event ≠ .reactor c callback) (waits : event ≠ .proceed c) :
      ¬event.Helps c reactor (busy.sections c) := by
    intro helps
    rcases helps.own with proceeds | ⟨callback, reacts⟩
    · exact waits proceeds
    · exact quiet callback reacts
  cases step with
  | stays left sections view running quiet noHelp =>
      exact .inr ⟨(same left sections).1, (same left sections).2, noHelp⟩
  | arrives | purges | stops =>
      exact .inr ⟨(same there rfl).1, (same there rfl).2, foreign (by simp) (by simp)⟩
  | proceeds part rest sections =>
      left
      rw [proceed_of_live there sections] at gone ⊢
      by_cases done : (Session.runSection ⟨busy.server.service, reactor⟩ part).reactor.done = true
      · refine gone ?_
        change Function.update _ _ _ _ = _
        rw [Function.update_self, if_pos done]
      · have left : (Function.update busy.server.reactors c
            (if (Session.runSection ⟨busy.server.service, reactor⟩ part).reactor.done then none
              else some (Session.runSection ⟨busy.server.service, reactor⟩ part).reactor)) c =
            some (Session.runSection ⟨busy.server.service, reactor⟩ part).reactor := by
          rw [Function.update_self, if_neg done]
        rw [stoppedRank_of_live left]
        change stepsLeft _ (Function.update busy.sections c rest c) < _
        rw [Function.update_self, sections]
        rw [sections] at steady
        exact stepsLeft_runSection stopped steady (sections ▸ regular.tidy.scheduled c)
          (Bool.eq_false_iff.mpr done)
  | reacts callback deliverable other idle =>
      rw [Server.react_of_live callback there] at gone ⊢
      by_cases done : (Session.react ⟨busy.server.service, reactor⟩ callback).reactor.done = true
      · refine .inl (gone ?_)
        change Function.update _ _ _ _ = _
        rw [Function.update_self, if_pos done]
      · have left : (Function.update busy.server.reactors c
            (if (Session.react ⟨busy.server.service, reactor⟩ callback).reactor.done then none
              else some (Session.react ⟨busy.server.service, reactor⟩ callback).reactor)) c =
            some (Session.react ⟨busy.server.service, reactor⟩ callback).reactor := by
          rw [Function.update_self, if_neg done]
        rw [stoppedRank_of_live left, helpsAt_of_live left]
        by_cases ignored : callback = .cancel ∨ callback = .onCancel
        · obtain ⟨loops, writes⟩ := react_of_ignored ⟨busy.server.service, reactor⟩ ignored
          exact .inr ⟨stepsLeft_congr loops writes _, helps_congr loops writes _,
            not_helps_of_ignored ignored _⟩
        · left
          have empty := idle (fun cancels => ignored (.inl cancels))
          change stepsLeft _ (busy.sections c) < _
          rw [empty] at steady ⊢
          exact stepsLeft_react stopped steady live deliverable other ignored
  | ends idle deliverable =>
      left
      obtain ⟨-, none, quiet⟩ := deliverable
      have begun (parts : ContextAddress → List CallSection) :
          ({ busy with sections := parts } : BusyServer).server.reactors c = some reactor := there
      rw [stoppedRank_of_live (begun _), idle, stepsLeft_of_quiet quiet none]
      change stepsLeft _ (Function.update busy.sections c _ c) < 3
      rw [Function.update_self]
      simp [stepsLeft]

/-- gRPC and the scheduler take every reactor of the context on again and again: the
sections of its callbacks, the passes of its loop, an answer to its write and `OnDone`. -/
structure FairFor (c : ContextAddress) (schedule : ℕ → CallEvent) : Prop where
  proceeds : ∀ t, ∃ u, t ≤ u ∧ schedule u = .proceed c
  passes : ∀ t, ∃ u, t ≤ u ∧ schedule u = .reactor c .pass
  answers : ∀ t, ∃ u, t ≤ u ∧ ∃ ok, schedule u = .reactor c (.onWriteDone ok)
  ends : ∀ t, ∃ u, t ≤ u ∧ schedule u = .reactor c .onDone

theorem helpsAt_cases (c : ContextAddress) (busy : BusyServer) :
    busy.HelpsAt c (.proceed c) ∨ busy.HelpsAt c (.reactor c .pass) ∨
      (∀ ok, busy.HelpsAt c (.reactor c (.onWriteDone ok))) ∨
      busy.HelpsAt c (.reactor c .onDone) := by
  cases there : busy.server.reactors c with
  | none => exact .inl (by simp only [HelpsAt, there])
  | some reactor =>
      rw [helpsAt_of_live there]
      cases busy.sections c with
      | cons part rest => exact .inl rfl
      | nil =>
          simp only [CallEvent.Helps]
          split
          · exact .inr (.inl trivial)
          · split
            · exact .inr (.inr (.inl fun ok => ⟨ok, rfl⟩))
            · exact .inr (.inr (.inr trivial))

theorem FairFor.helps {schedule : ℕ → CallEvent} (fair : FairFor c schedule) (busy : BusyServer)
    (t : ℕ) : ∃ u, t ≤ u ∧ busy.HelpsAt c (schedule u) := by
  rcases helpsAt_cases c busy with proceeds | passes | answers | ends
  · obtain ⟨u, later, comes⟩ := fair.proceeds t
    exact ⟨u, later, comes ▸ proceeds⟩
  · obtain ⟨u, later, comes⟩ := fair.passes t
    exact ⟨u, later, comes ▸ passes⟩
  · obtain ⟨u, later, ok, comes⟩ := fair.answers t
    exact ⟨u, later, comes ▸ answers ok⟩
  · obtain ⟨u, later, comes⟩ := fair.ends t
    exact ⟨u, later, comes ▸ ends⟩

section Schedules
variable {start : BusyServer} {schedule : ℕ → CallEvent}

end Schedules

/-- There are only so many reactors. -/
theorem finite_step (finite : {c | busy.server.reactors c ≠ none}.Finite) (event : CallEvent) :
    {c | (callMachine.step busy event).1.server.reactors c ≠ none}.Finite := by
  have built : {c | ∃ call, event = .connect call ∧ call.context = c}.Subsingleton := by
    rintro c ⟨call, rfl, rfl⟩ d ⟨other, same, rfl⟩
    rw [CallEvent.connect.inj same]
  refine (finite.union built.finite).subset (fun c left => ?_)
  by_cases gone : busy.server.reactors c = none
  · obtain ⟨reactor, there⟩ := Option.ne_none_iff_exists'.mp left
    obtain ⟨call, connects, own, -, -⟩ := connected_of_none gone there
    exact .inr ⟨call, connects, own⟩
  · exact .inl gone

theorem finite_live (options : ServerOptions) (streamOptions : StreamOptions)
    (events : List CallEvent) :
    {c | (callMachine.run (start options streamOptions) events).server.reactors c ≠ none}.Finite :=
  callMachine.run_invariant (fun busy => {c | busy.server.reactors c ≠ none}.Finite)
    (fun _ event finite => finite_step finite event) (by simp [start, Server.start]) events

end BusyServer

end UDataPacketService
