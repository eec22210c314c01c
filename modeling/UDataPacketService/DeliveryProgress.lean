import UDataPacketService.ServerDelivery
import UDataPacketService.ServerShutdown
import UDataPacketService.ClientIsolation

/-! What is queued for a client is written in the end. While the server runs, the client
stays and its writes succeed, every pass of the loop fetches or writes, and a fetch takes
at least the front of each queue. -/
namespace UDataPacketService
open Std (ExtTreeMap ExtTreeSet)

def ofStream (name : String) (packets : List Packet) : List Packet :=
  packets.filter (fun packet => packet.toName = name)

theorem ofStream_append (name : String) (packets others : List Packet) :
    ofStream name (packets ++ others) = ofStream name packets ++ ofStream name others :=
  List.filter_append ..

/-- How far a reactor is from having written the first packets of a stream: those that
it has still to fetch, each of which may bring a full batch, and those that wait. -/
def Reactor.owes (name : String) (n : ℕ) (reactor : Reactor) : ℕ :=
  (n - (ofStream name reactor.taken).length) * 2050 + reactor.waiting.length

theorem Reactor.owes_congr {reactor next : Reactor} (taken : next.taken = reactor.taken)
    (waiting : next.waiting = reactor.waiting) (name : String) (n : ℕ) :
    next.owes name n = reactor.owes name n := by
  rw [owes, owes, taken, waiting]

theorem SubscriptionManager.fetches_of_queue {manager : SubscriptionManager}
    (coherent : manager.Coherent) {c : ContextAddress} {name : String}
    (queued : queueIn c name manager ≠ []) : ofStream name (manager.getPackets c).1 ≠ [] := by
  rw [queueIn_eq_queueAt] at queued
  rw [ofStream, getPackets_fst, ClientView.filter_pullAll name (coherent c)]
  have served : ((manager.view c).queueAt name).isSome := by
    cases queue : (manager.view c).queueAt name with
    | none => rw [queue] at queued; exact absurd rfl queued
    | some packets => rfl
  have visited : 0 < manager.walk.count name :=
    List.count_pos_iff.mpr (mem_walk_of_own c manager ((coherent c).recorded name served))
  intro nothing
  rcases List.take_eq_nil_iff.mp nothing with none | empty
  · omega
  · exact queued empty

namespace Session
variable {session : Session} {name : String} {n : ℕ}

/-- A pass that does not leave the loop fetches for an empty queue or writes the front. -/
theorem nextWritePass_of_running (idle : session.reactor.mWriteInProgress = false)
    (running : session.service.mKeepRunning = true) (stays : session.reactor.isCancelled = false) :
    (session.reactor.mPacketsQueue = [] ∧ session.nextWritePass = session.fetchPackets ∧
      session.fetched session.reactor.mPacketsQueue =
        (session.service.mSubscriptionManager.getPackets session.reactor.mContextAddress).1) ∨
      ∃ packet rest, session.reactor.mPacketsQueue = packet :: rest ∧
        session.nextWritePass = session.startWrite packet := by
  unfold nextWritePass fetched
  cases queue : session.reactor.mPacketsQueue with
  | nil => exact .inl ⟨rfl, by simp [running, stays], by simp [running, stays]⟩
  | cons packet rest => exact .inr ⟨packet, rest, rfl, by simp [running, stays, idle]⟩

/-- Such a pass takes the reactor on, as long as the packets are there and no fetch loses
one of them. -/
theorem owes_nextWritePass (coherent : session.service.mSubscriptionManager.Coherent)
    (disciplined : Disciplined session.reactor session.reactor.taken)
    (polls : session.reactor.polling = true)
    (running : session.service.mKeepRunning = true) (stays : session.reactor.isCancelled = false)
    (held : n ≤ (session.held name).length)
    (unwritten : ¬n ≤ (ofStream name (writtenPackets session.reactor.calls)).length)
    (fits : ∀ packet ∈ overflow (session.fetched session.reactor.mPacketsQueue),
      packet.toName ≠ name) :
    session.nextWritePass.reactor.owes name n < session.reactor.owes name n := by
  have idle := (disciplined.polling polls).1
  have account := (disciplined.nextWritePass polls).self.account.symm.trans
    (disciplined.nextWritePass polls).account
  have taken : session.nextWritePass.reactor.taken = session.reactor.taken ++
      keptBatch 2048 (session.fetched session.reactor.mPacketsQueue) := account
  rw [Reactor.owes, Reactor.owes, taken]
  rcases nextWritePass_of_running idle running stays with ⟨empty, next, batch⟩ |
    ⟨packet, rest, queue, next⟩
  · have none : session.reactor.waiting = [] := by
      rw [Reactor.waiting, idle, empty]
      rfl
    have fetched : session.nextWritePass.reactor.waiting =
        keptBatch 2048 (session.fetched session.reactor.mPacketsQueue) := by
      have flag : session.fetchPackets.reactor.mWriteInProgress = false := idle
      rw [next, Reactor.waiting, flag, if_neg Bool.false_ne_true, batch, ← pushPackets_nil,
        ← disciplined.size]
      simp only [fetchPackets, empty]
    have short : (keptBatch 2048 (session.fetched session.reactor.mPacketsQueue)).length ≤ 2049 := by
      rw [keptBatch, List.length_drop]
      omega
    -- what is not written is still in the manager
    have owed : (ofStream name session.reactor.taken).length < n := by
      rw [Reactor.taken, none, List.append_nil]
      omega
    have queued : session.queue name ≠ [] := by
      intro nothing
      rw [Session.held, nothing, List.append_nil] at held
      exact absurd held (not_le.mpr owed)
    have some_ := SubscriptionManager.fetches_of_queue coherent queued
    rw [← batch] at some_
    have more : 0 < (ofStream name
        (keptBatch 2048 (session.fetched session.reactor.mPacketsQueue))).length := by
      refine List.length_pos_of_ne_nil (fun lost => some_ ?_)
      rw [← overflow_append_kept (session.fetched session.reactor.mPacketsQueue), ofStream_append,
        lost, List.append_nil, ofStream, List.filter_eq_nil_iff]
      exact fun packet member => by simpa using fits packet member
    rw [fetched, none, ofStream_append, List.length_append, List.length_nil]
    have fewer : n - ((ofStream name session.reactor.taken).length + (ofStream name
        (keptBatch 2048 (session.fetched session.reactor.mPacketsQueue))).length) + 1 ≤
        n - (ofStream name session.reactor.taken).length := by
      omega
    have scaled := Nat.mul_le_mul_right 2050 fewer
    omega
  · have nothing : session.fetched session.reactor.mPacketsQueue = [] := by
      rw [fetched, queue]
      simp
    have fewer : session.nextWritePass.reactor.waiting.length + 1 = session.reactor.waiting.length := by
      rw [next, Reactor.waiting, Reactor.waiting, idle, queue]
      simp [startWrite, queue]
    rw [nothing, keptBatch, List.drop_nil, List.append_nil]
    omega

theorem looping_nextWritePass (idle : session.reactor.mWriteInProgress = false)
    (polls : session.reactor.polling = true) (running : session.service.mKeepRunning = true)
    (stays : session.reactor.isCancelled = false) :
    session.nextWritePass.reactor.isCancelled = false ∧
      (session.nextWritePass.reactor.polling = true ∨
        0 < session.nextWritePass.reactor.outstandingWrites) := by
  rcases nextWritePass_of_running idle running stays with ⟨-, next, -⟩ | ⟨packet, rest, -, next⟩
  · rw [next]
    exact ⟨stays, .inl polls⟩
  · rw [next]
    exact ⟨stays, .inr (Nat.succ_pos _)⟩

theorem runSection_of_other (session : Session) {part : CallSection} (other : part ≠ .startWriting) :
    (session.runSection part).reactor.isCancelled = session.reactor.isCancelled ∧
      (session.runSection part).reactor.taken = session.reactor.taken ∧
      (session.runSection part).reactor.waiting = session.reactor.waiting := by
  have finish_if (next : Session) (status : Status) (P : Prop) [Decidable P] :
      (if P then next.finish status else next).reactor.isCancelled = next.reactor.isCancelled ∧
        (if P then next.finish status else next).reactor.taken = next.reactor.taken ∧
        (if P then next.finish status else next).reactor.waiting = next.reactor.waiting := by
    split
    · refine ⟨rfl, ?_, rfl⟩
      rw [Reactor.taken, finish, writtenPackets_finish]
      rfl
    · exact ⟨rfl, rfl, rfl⟩
  cases part with
  | checkCapacity =>
      exact finish_if session.getNumberOfSubscribers.2 .maxSubscribersHit _
  | subscribe request =>
      cases request with
      | subscribeToAll => exact ⟨rfl, rfl, rfl⟩
      | subscribe selections =>
          have first := finish_if session .noStreamsSpecified (selections = [])
          have second := finish_if
            (if selections = [] then session.finish .noStreamsSpecified else session)
            .noStreamsCreated (SubscriptionManager.distinctIdentifiers selections = [])
          rw [first.1, first.2.1, first.2.2] at second
          simp only [runSection, subscribeTo]
          split
          · exact second
          · have third := finish_if
              (if SubscriptionManager.distinctIdentifiers selections = [] then
                (if selections = [] then session.finish .noStreamsSpecified else session).finish
                  .noStreamsCreated
                else if selections = [] then session.finish .noStreamsSpecified else session)
              .failedToSubscribe True
            rw [if_pos trivial, second.1, second.2.1, second.2.2] at third
            exact third
  | countSubscribers =>
      simp only [runSection, countSubscribers]
      split <;> exact ⟨rfl, rfl, rfl⟩
  | startWriting => exact absurd rfl other
  | unsubscribe =>
      simp only [runSection, unsubscribe_reactor]
      exact ⟨trivial, rfl, rfl⟩
  | countRemaining => exact ⟨rfl, rfl, rfl⟩

structure Passes (session : Session) (event : ReactorEvent) (entered : Session) : Prop where
  result : session.react event = entered.nextWritePass
  disciplined : Disciplined entered.reactor entered.reactor.taken
  polls : entered.reactor.polling = true
  service : entered.service = session.service
  address : entered.reactor.mContextAddress = session.reactor.mContextAddress
  cancelled : entered.reactor.isCancelled = session.reactor.isCancelled
  done : entered.reactor.done = session.reactor.done
  taken : entered.reactor.taken = session.reactor.taken
  waiting : entered.reactor.waiting = session.reactor.waiting
  calls : writtenPackets entered.reactor.calls = writtenPackets session.reactor.calls
  batch : entered.fetched entered.reactor.mPacketsQueue = session.batch event

def resumed (session : Session) : Session :=
  enterLoop { session.answerWrite with reactor := { session.answerWrite.reactor with
    mWriteInProgress := false
    mPacketsQueue := session.reactor.mPacketsQueue.tail } }

end Session

namespace Steady
variable {session : Session}

theorem passes_pass (steady : Steady session.reactor []) (live : session.reactor.done = false)
    (deliverable : ReactorEvent.pass.Deliverable session.reactor) :
    session.Passes .pass session := by
  have delivered : ¬(session.reactor.done = true ∨
      ¬ReactorEvent.pass.Deliverable session.reactor) := by
    rw [live]
    simpa using deliverable
  refine ⟨?_, steady.disciplined, deliverable, rfl, rfl, rfl, rfl, rfl, rfl, rfl, ?_⟩
  · unfold Session.react
    rw [if_neg delivered]
  · rw [Session.batch, if_neg delivered]

theorem passes_onWriteDone (steady : Steady session.reactor [])
    (live : session.reactor.done = false)
    (deliverable : (ReactorEvent.onWriteDone true).Deliverable session.reactor) :
    session.Passes (.onWriteDone true) session.resumed := by
  have delivered : ¬(session.reactor.done = true ∨
      ¬(ReactorEvent.onWriteDone true).Deliverable session.reactor) := by
    rw [live]
    simpa using deliverable
  have last : session.reactor.outstandingWrites - 1 = 0 := by
    have := steady.disciplined.single
    omega
  have waiting : session.reactor.waiting = session.reactor.mPacketsQueue.tail := by
    rw [Reactor.waiting, if_pos (steady.disciplined.flagged deliverable.1)]
  have idle {P : Prop} (flag : session.resumed.reactor.mWriteInProgress = true) : P :=
    absurd flag Bool.false_ne_true
  have answered : ¬0 < session.resumed.reactor.outstandingWrites :=
    fun more => absurd (last ▸ more : 0 < 0) (lt_irrefl 0)
  refine ⟨?_, ⟨steady.disciplined.size, last.le.trans (Nat.zero_le 1), fun _ => ⟨rfl, last⟩,
    fun more => absurd more answered, idle, rfl⟩, rfl, rfl, rfl, rfl, rfl, ?_, waiting.symm, rfl, ?_⟩
  · unfold Session.react
    rw [if_neg delivered]
    rfl
  · exact congrArg (writtenPackets session.reactor.calls ++ ·) waiting.symm
  · rw [Session.batch, if_neg delivered]
    rfl

end Steady

namespace BusyServer
variable {busy : BusyServer} {c : ContextAddress} {name : String} {n : ℕ} {reactor : Reactor}

/-- The server runs, and the reactor of the context has not been cancelled and is on its
way to the loop, in it, or waits for the answer to a write. -/
structure Serving (c : ContextAddress) (busy : BusyServer) : Prop where
  running : busy.server.service.mKeepRunning = true
  live : ∃ reactor, busy.server.reactors c = some reactor ∧ reactor.isCancelled = false ∧
    (.startWriting ∈ busy.sections c ∨
      (busy.sections c = [] ∧ (reactor.polling = true ∨ 0 < reactor.outstandingWrites)))

/-- The server is not stopped, the client does not cancel and its writes succeed. -/
def Healthy (c : ContextAddress) (event : CallEvent) : Prop :=
  event ≠ .stopServer ∧ event ≠ .reactor c .cancel ∧ event ≠ .reactor c (.onWriteDone false)

def Written (c : ContextAddress) (name : String) (n : ℕ) (busy : BusyServer) : Prop :=
  n ≤ (ofStream name (busy.writtenBy c)).length

def owes (c : ContextAddress) (name : String) (n : ℕ) (busy : BusyServer) : ℕ :=
  match busy.server.reactors c with
  | none => 0
  | some reactor => reactor.owes name n + (busy.sections c).length

theorem owes_of_live (there : busy.server.reactors c = some reactor) :
    busy.owes c name n = reactor.owes name n + (busy.sections c).length := by
  simp only [owes, there]

theorem Serving.proceed (h : busy.Serving c) (regular : busy.Regular)
    (there : busy.server.reactors c = some reactor) {part : CallSection} {rest : List CallSection}
    (sections : busy.sections c = part :: rest) (starts : .startWriting ∈ part :: rest)
    (stays : reactor.isCancelled = false) (keeps : Keeps c name busy (.proceed c))
    (held : n ≤ (heldBy c name busy).length) :
    (busy.proceed c).Serving c ∧
      (¬busy.Written c name n → (busy.proceed c).owes c name n < busy.owes c name n) := by
  have steady := regular.steady c reactor there
  have scheduled := regular.tidy.scheduled c
  rw [sections] at steady scheduled
  have live := (regular.tidy.live c reactor there).2
  have last : part ≠ .countRemaining := by
    rintro rfl
    rcases scheduled with ⟨call, suffix⟩ | suffix
    · have member := suffix.subset List.mem_cons_self
      simp [IncomingCall.sections] at member
    · have member := suffix.subset starts
      simp at member
  have alive : ¬(Session.runSection ⟨busy.server.service, reactor⟩ part).reactor.done = true := by
    rw [Session.runSection_done last, live]
    exact Bool.false_ne_true
  rw [owes_of_live there, proceed_of_live there sections, sections]
  have left : (Function.update busy.server.reactors c
      (if (Session.runSection ⟨busy.server.service, reactor⟩ part).reactor.done then none
        else some (Session.runSection ⟨busy.server.service, reactor⟩ part).reactor)) c =
      some (Session.runSection ⟨busy.server.service, reactor⟩ part).reactor := by
    rw [Function.update_self, if_neg alive]
  have running : (Session.runSection ⟨busy.server.service, reactor⟩ part).service.mKeepRunning =
      true := (Session.running_runSection part).trans h.running
  rw [owes_of_live left]
  have behind : Function.update busy.sections c rest c = rest := Function.update_self _ _ _
  simp only [behind, List.length_cons]
  by_cases first : part = .startWriting
  · subst first
    obtain rfl := scheduled.startWriting_last
    have atRest := steady.starting List.mem_cons_self
    have entered : (Session.enterLoop ⟨busy.server.service, reactor⟩).reactor.mWriteInProgress =
        false := atRest.idle
    have looping := Session.looping_nextWritePass entered rfl h.running stays
    refine ⟨⟨running, _, left, looping.1, .inr ⟨behind, looping.2⟩⟩, fun unwritten => ?_⟩
    have disciplined : Session.Disciplined
        (Session.enterLoop ⟨busy.server.service, reactor⟩).reactor
        (Session.enterLoop ⟨busy.server.service, reactor⟩).reactor.taken :=
      ⟨steady.disciplined.size, steady.disciplined.single, fun _ => ⟨atRest.idle, atRest.none⟩,
        steady.disciplined.flagged, steady.disciplined.front, rfl⟩
    have kept := keeps reactor there rfl _ _ sections
    rw [heldBy_of_live name there] at held
    rw [Written, writtenBy_of_live there] at unwritten
    have lower : (Session.runSection ⟨busy.server.service, reactor⟩ .startWriting).reactor.owes name
        n < (Session.enterLoop ⟨busy.server.service, reactor⟩).reactor.owes name n :=
      Session.owes_nextWritePass regular.tidy.coherent disciplined rfl h.running stays held unwritten
        kept.overflow
    have same : (Session.enterLoop ⟨busy.server.service, reactor⟩).reactor.owes name n =
        reactor.owes name n := Reactor.owes_congr rfl rfl name n
    rw [List.length_nil]
    omega
  · obtain ⟨cancelled, taken, waiting⟩ :=
      Session.runSection_of_other ⟨busy.server.service, reactor⟩ first
    refine ⟨⟨running, _, left, cancelled.trans stays, .inl ?_⟩, fun _ => ?_⟩
    · change .startWriting ∈ Function.update busy.sections c rest c
      rw [behind]
      exact (List.mem_cons.mp starts).resolve_left (fun same => first same.symm)
    · have same : (Session.runSection ⟨busy.server.service, reactor⟩ part).reactor.owes name n =
          reactor.owes name n := Reactor.owes_congr taken waiting name n
      omega

theorem Serving.of_passes (h : busy.Serving c) (regular : busy.Regular)
    (there : busy.server.reactors c = some reactor) (idle : busy.sections c = [])
    (stays : reactor.isCancelled = false) {event : ReactorEvent} {session : Session}
    (passes : Session.Passes ⟨busy.server.service, reactor⟩ event session)
    (kept : Session.KeepsDrawn name ⟨busy.server.service, reactor⟩
      (Session.react ⟨busy.server.service, reactor⟩ event)
      (Session.batch ⟨busy.server.service, reactor⟩ event))
    (held : n ≤ (heldBy c name busy).length) :
    ({ busy with server := busy.server.react c event } : BusyServer).Serving c ∧
      (¬busy.Written c name n →
        ({ busy with server := busy.server.react c event } : BusyServer).owes c name n <
          busy.owes c name n) := by
  have running : session.service.mKeepRunning = true :=
    (congrArg Service.mKeepRunning passes.service).trans h.running
  have uncancelled : session.reactor.isCancelled = false := passes.cancelled.trans stays
  have idleWrite := (passes.disciplined.polling passes.polls).1
  have looping := Session.looping_nextWritePass idleWrite passes.polls running uncancelled
  have alive : ¬session.nextWritePass.reactor.done = true := by
    rw [Session.nextWritePass_done, passes.done, (regular.tidy.live c reactor there).2]
    exact Bool.false_ne_true
  have left : ({ busy with server := busy.server.react c event } : BusyServer).server.reactors c =
      some session.nextWritePass.reactor := by
    rw [Server.react_of_live event there, passes.result]
    change Function.update _ _ _ _ = _
    rw [Function.update_self, if_neg alive]
  have on : (busy.server.react c event).service.mKeepRunning = true :=
    (running_react c event).trans h.running
  refine ⟨⟨on, _, left, looping.1, .inr ⟨idle, looping.2⟩⟩, fun unwritten => ?_⟩
  rw [Written, writtenBy_of_live there, ← passes.calls] at unwritten
  have coherent : session.service.mSubscriptionManager.Coherent := by
    rw [passes.service]
    exact regular.tidy.coherent
  have size : n ≤ (session.held name).length := by
    rw [heldBy_of_live name there] at held
    rwa [Session.held, Session.queue, passes.taken, passes.address, passes.service]
  have lower := Session.owes_nextWritePass coherent passes.disciplined passes.polls running
    uncancelled size unwritten (passes.batch ▸ kept.overflow)
  rw [Reactor.owes_congr passes.taken passes.waiting] at lower
  rw [owes_of_live left, owes_of_live there]
  exact Nat.add_lt_add_right lower _

theorem Serving.react (h : busy.Serving c) (regular : busy.Regular)
    (there : busy.server.reactors c = some reactor) (idle : busy.sections c = [])
    (stays : reactor.isCancelled = false) {event : ReactorEvent}
    (deliverable : event.Deliverable reactor) (other : event ≠ .onDone)
    (healthy : Healthy c (.reactor c event)) (keeps : Keeps c name busy (.reactor c event))
    (held : n ≤ (heldBy c name busy).length) :
    ({ busy with server := busy.server.react c event } : BusyServer).Serving c ∧
      (¬busy.Written c name n →
        ({ busy with server := busy.server.react c event } : BusyServer).owes c name n <
          busy.owes c name n) := by
  have steady : Steady (⟨busy.server.service, reactor⟩ : Session).reactor (busy.sections c) :=
    regular.steady c reactor there
  rw [idle] at steady
  have live : (⟨busy.server.service, reactor⟩ : Session).reactor.done = false :=
    (regular.tidy.live c reactor there).2
  have kept := keeps reactor there rfl other (.inr idle)
  cases event with
  | cancel => exact absurd rfl healthy.2.1
  | pass =>
      exact h.of_passes regular there idle stays (steady.passes_pass live deliverable) kept held
  | onWriteDone ok =>
      cases ok with
      | false => exact absurd rfl healthy.2.2
      | true =>
          exact h.of_passes regular there idle stays (steady.passes_onWriteDone live deliverable)
            kept held
  | onCancel =>
      have cancelled : reactor.isCancelled = true := deliverable.1
      exact absurd (stays.symm.trans cancelled) Bool.false_ne_true
  | onDone => exact absurd rfl other

/-- While nothing of the stream is lost and the client is healthy, a step takes its
reactor on, or leaves what takes it on. -/
theorem Serving.step (h : busy.Serving c) (regular : busy.Regular) {event : CallEvent}
    (healthy : Healthy c event) (keeps : Keeps c name busy event)
    (held : n ≤ (heldBy c name busy).length) :
    (callMachine.step busy event).1.Serving c ∧
      Machine.RankProgress (Written c name n) (owes c name n) (HelpsAt c) busy
        (callMachine.step busy event).1 event := by
  obtain ⟨reactor, there, stays, place⟩ := h.live
  have steady := regular.steady c reactor there
  have step := regular.tidy.stepAt there steady event
  have own {next : BusyServer}
      (advances : next.Serving c ∧ (¬busy.Written c name n → next.owes c name n < busy.owes c name n)) :
      next.Serving c ∧
        Machine.RankProgress (Written c name n) (owes c name n) (HelpsAt c) busy next event :=
    ⟨advances.1, fun unwritten => .inl (advances.2 unwritten)⟩
  have same {next : BusyServer} (left : next.server.reactors c = some reactor)
      (sections : next.sections c = busy.sections c)
      (running : next.server.service.mKeepRunning = busy.server.service.mKeepRunning)
      (noHelp : ¬event.Helps c reactor (busy.sections c)) :
      next.Serving c ∧
        Machine.RankProgress (Written c name n) (owes c name n) (HelpsAt c) busy next event := by
    refine ⟨⟨running.trans h.running, reactor, left, stays, by rw [sections]; exact place⟩,
      fun _ => .inr ?_⟩
    rw [owes_of_live left, owes_of_live there, helpsAt_of_live left, helpsAt_of_live there, sections]
    exact ⟨rfl, rfl, noHelp⟩
  have foreign (quiet : ∀ callback, event ≠ .reactor c callback) (waits : event ≠ .proceed c) :
      ¬event.Helps c reactor (busy.sections c) := by
    intro helps
    rcases helps.own with proceeds | ⟨callback, reacts⟩
    · exact waits proceeds
    · exact quiet callback reacts
  generalize (callMachine.step busy event).1 = next at step
  cases step with
  | stays left sections view running quiet noHelp => exact same left sections running noHelp
  | arrives | purges => exact same there rfl rfl (foreign (by simp) (by simp))
  | stops => exact absurd rfl healthy.1
  | proceeds part rest sections =>
      have starts : .startWriting ∈ part :: rest := by
        rcases place with starts | ⟨idle, -⟩
        · exact sections ▸ starts
        · cases idle.symm.trans sections
      exact own (h.proceed regular there sections starts stays keeps held)
  | reacts callback deliverable other idle =>
      have empty := idle (fun cancels => healthy.2.1 (congrArg (CallEvent.reactor c) cancels))
      exact own (h.react regular there empty stays deliverable other healthy keeps held)
  | ends idle deliverable =>
      obtain ⟨-, none, quiet⟩ := deliverable
      rcases place with starts | ⟨-, polls | pending⟩
      · rw [idle] at starts
        cases starts
      · exact absurd (quiet.symm.trans polls) Bool.false_ne_true
      · omega

end BusyServer

namespace BusyServer
variable {busy : BusyServer} {c : ContextAddress} {name : String} {reactor : Reactor}

end BusyServer

end UDataPacketService
