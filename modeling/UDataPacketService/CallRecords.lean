import UDataPacketService.ServerShutdown

/-! What the reactors call on gRPC, over whole runs of the server. The calls of a reactor
only grow, the counter of sent packets is the number of calls of `StartWrite`, and only
the access check rejects a client. -/
namespace UDataPacketService

/-- A sum over a family of which one member is replaced. -/
theorem finsum_update_add {ι : Type*} [DecidableEq ι] {f : ι → ℕ} (finite : f.support.Finite)
    (i : ι) (value : ℕ) :
    (∑ᶠ j, Function.update f i value j) + f i = (∑ᶠ j, f j) + value := by
  have supported (n : ℕ) : (Pi.single i n : ι → ℕ).support.Finite :=
    (Set.finite_singleton i).subset Pi.support_single_subset
  have single (n : ℕ) : (∑ᶠ j, (Pi.single i n : ι → ℕ) j) = n := by
    rw [finsum_eq_single _ i (fun j other => by simp [other]), Pi.single_eq_same]
  have updated : (Function.update f i value).support.Finite := by
    refine (finite.union (Set.finite_singleton i)).subset (fun j there => ?_)
    by_cases own : j = i
    · exact .inr own
    · exact .inl (by simpa [Function.update_of_ne own] using there)
  have both (j : ι) : Function.update f i value j + (Pi.single i (f i) : ι → ℕ) j =
      f j + (Pi.single i value : ι → ℕ) j := by
    by_cases own : j = i
    · subst own
      simp [Nat.add_comm]
    · simp [Function.update_of_ne own, Pi.single_eq_of_ne own]
  calc (∑ᶠ j, Function.update f i value j) + f i
      = (∑ᶠ j, Function.update f i value j) + ∑ᶠ j, (Pi.single i (f i) : ι → ℕ) j := by
        rw [single]
    _ = ∑ᶠ j, (f j + (Pi.single i value : ι → ℕ) j) := by
        rw [← finsum_add_distrib updated (supported _), finsum_congr both]
    _ = (∑ᶠ j, f j) + value := by
        rw [finsum_add_distrib finite (supported value), single]

theorem writtenPackets_append (calls added : List ReactorCall) :
    writtenPackets (calls ++ added) = writtenPackets calls ++ writtenPackets added :=
  List.filterMap_append

/-- A section or a callback adds calls to those of its reactor. The counter of sent packets
rises with every `StartWrite`, and none of them rejects the client. -/
structure Session.Adds (session next : Session) (added : List ReactorCall) : Prop where
  calls : next.reactor.calls = session.reactor.calls ++ added
  sent : next.service.mMetrics.mSentPacketsCounter =
    session.service.mMetrics.mSentPacketsCounter + (writtenPackets added).length
  options : next.service.mOptions = session.service.mOptions
  allowed : .finish .rejected ∉ added

namespace Session.Adds
variable {session next last : Session} {added more : List ReactorCall}

theorem nothing (calls : next.reactor.calls = session.reactor.calls)
    (sent : next.service.mMetrics.mSentPacketsCounter =
      session.service.mMetrics.mSentPacketsCounter)
    (options : next.service.mOptions = session.service.mOptions) : session.Adds next [] where
  calls := by rw [calls, List.append_nil]
  sent := by rw [sent]; exact (Int.add_zero _).symm
  options := options
  allowed := List.not_mem_nil

theorem trans (h : session.Adds next added) (h' : next.Adds last more) :
    session.Adds last (added ++ more) where
  calls := by rw [h'.calls, h.calls, List.append_assoc]
  sent := by
    rw [h'.sent, h.sent, writtenPackets_append, List.length_append, Nat.cast_add, Int.add_assoc]
  options := h'.options.trans h.options
  allowed := fun rejected => (List.mem_append.mp rejected).elim h.allowed h'.allowed

theorem of_same (h : next.Adds last added) (calls : next.reactor.calls = session.reactor.calls)
    (sent : next.service.mMetrics.mSentPacketsCounter =
      session.service.mMetrics.mSentPacketsCounter)
    (options : next.service.mOptions = session.service.mOptions) : session.Adds last added :=
  (nothing calls sent options).trans h

theorem to_same (h : session.Adds next added) (calls : last.reactor.calls = next.reactor.calls)
    (sent : last.service.mMetrics.mSentPacketsCounter = next.service.mMetrics.mSentPacketsCounter)
    (options : last.service.mOptions = next.service.mOptions) : session.Adds last added := by
  have both := h.trans (nothing calls sent options)
  rwa [List.append_nil] at both

theorem finish (session : Session) {status : Status} (other : status ≠ .rejected) :
    session.Adds (session.finish status) [.finish status] where
  calls := rfl
  sent := (Int.add_zero _).symm
  options := rfl
  allowed := by
    rw [List.mem_singleton]
    exact fun same => other (ReactorCall.finish.inj same).symm

theorem startWrite (session : Session) (packet : Packet) :
    session.Adds (session.startWrite packet) [.startWrite packet] where
  calls := rfl
  sent := rfl
  options := rfl
  allowed := by simp

theorem unsubscribe (session : Session) : session.Adds session.unsubscribe [] := by
  unfold Session.unsubscribe
  split
  · exact nothing rfl rfl rfl
  · exact nothing rfl rfl rfl

theorem leave (session : Session) : ∃ added, session.Adds session.leave added := by
  refine ⟨_, (unsubscribe session).trans ((finish session.unsubscribe ?_).to_same rfl rfl rfl)⟩
  split <;> simp [Status.rejected]

theorem nextWritePass (session : Session) : ∃ added, session.Adds session.nextWritePass added := by
  unfold Session.nextWritePass
  split
  · exact leave session
  · split
    · exact ⟨[], nothing rfl rfl rfl⟩
    · split
      · exact ⟨[], nothing rfl rfl rfl⟩
      · exact ⟨_, startWrite session _⟩

theorem nextWrite (session : Session) : ∃ added, session.Adds session.nextWrite added := by
  obtain ⟨added, pass⟩ := nextWritePass session.enterLoop
  exact ⟨_, pass.of_same rfl rfl rfl⟩

theorem subscribeTo (session : Session) (request : Request) :
    ∃ added, session.Adds (session.subscribeTo request) added := by
  have finish_if (session : Session) {status : Status} (other : status ≠ .rejected) (P : Prop)
      [Decidable P] :
      ∃ added, session.Adds (if P then session.finish status else session) added := by
    split
    · exact ⟨_, finish session other⟩
    · exact ⟨[], nothing rfl rfl rfl⟩
  cases request with
  | subscribeToAll => exact ⟨[], nothing rfl rfl rfl⟩
  | subscribe selections =>
      obtain ⟨first, some_⟩ := finish_if session (by decide : Status.noStreamsSpecified ≠ .rejected)
        (selections = [])
      obtain ⟨second, distinct⟩ := finish_if
        (if selections = [] then session.finish .noStreamsSpecified else session)
        (by decide : Status.noStreamsCreated ≠ .rejected)
        (SubscriptionManager.distinctIdentifiers selections = [])
      have checked := some_.trans distinct
      simp only [Session.subscribeTo]
      split
      · exact ⟨_, checked.to_same rfl rfl rfl⟩
      · exact ⟨_, checked.trans (finish _ (by decide))⟩

theorem runSection (session : Session) (part : CallSection) :
    ∃ added, session.Adds (session.runSection part) added := by
  cases part with
  | checkCapacity =>
      simp only [Session.runSection, Session.checkCapacity]
      split
      · exact ⟨_, (finish session.getNumberOfSubscribers.2
          (by decide : Status.maxSubscribersHit ≠ .rejected)).of_same rfl rfl rfl⟩
      · exact ⟨[], nothing rfl rfl rfl⟩
  | subscribe request => exact subscribeTo session request
  | countSubscribers =>
      simp only [Session.runSection, Session.countSubscribers]
      split
      · exact ⟨[], nothing rfl rfl rfl⟩
      · exact ⟨[], nothing rfl rfl rfl⟩
  | startWriting => exact nextWrite session
  | unsubscribe => exact ⟨[], unsubscribe session⟩
  | countRemaining => exact ⟨[], nothing rfl rfl rfl⟩

theorem react (session : Session) (event : ReactorEvent) :
    ∃ added, session.Adds (session.react event) added := by
  unfold Session.react
  split
  · exact ⟨[], nothing rfl rfl rfl⟩
  · cases event with
    | cancel => exact ⟨[], nothing rfl rfl rfl⟩
    | pass => exact nextWritePass session
    | onWriteDone ok =>
        simp only [Session.onWriteDone]
        split
        · obtain ⟨added, next⟩ := nextWrite { session.answerWrite with
            reactor := { session.answerWrite.reactor with
              mWriteInProgress := false
              mPacketsQueue := session.answerWrite.reactor.mPacketsQueue.tail } }
          exact ⟨_, next.of_same rfl rfl rfl⟩
        · split
          · exact ⟨_, (finish session.answerWrite (by simp [Status.rejected])).of_same rfl rfl rfl⟩
          · exact ⟨_, (finish session.answerWrite
              (by decide : Status.unexpectedFailure ≠ .rejected)).of_same rfl rfl rfl⟩
    | onCancel =>
        have leaves := unsubscribe { session with
          reactor := { session.reactor with cancelDelivered := true } }
        exact ⟨[], leaves.of_same rfl rfl rfl⟩
    | onDone => exact ⟨[], (unsubscribe session).to_same rfl rfl rfl⟩

end Session.Adds

namespace Session

theorem arrive_calls (service : Service) (call : IncomingCall) :
    (arrive service call).reactor.calls =
      if call.Unauthenticated service.mOptions then [.finish .rejected] else [] := by
  unfold arrive
  rw [authenticate_eq]
  split <;> rfl

theorem react_done (session : Session) {event : ReactorEvent} (other : event ≠ .onDone) :
    (session.react event).reactor.done = session.reactor.done := by
  unfold Session.react
  split
  · rfl
  · cases event with
    | cancel => rfl
    | pass => exact session.nextWritePass_done
    | onWriteDone ok =>
        simp only [onWriteDone]
        split
        · exact nextWritePass_done _
        · split <;> rfl
    | onCancel => simp only [onCancel, unsubscribe_reactor]
    | onDone => exact absurd rfl other

end Session

namespace BusyServer
variable {busy : BusyServer} {c : ContextAddress} {reactor : Reactor}

def deleted (busy : BusyServer) : CallEvent → Option Reactor
  | .proceed context =>
      match busy.server.reactors context, busy.sections context with
      | some reactor, part :: _ =>
          let session := Session.runSection ⟨busy.server.service, reactor⟩ part
          if session.reactor.done then some session.reactor else none
      | _, _ => none
  | .connect _ | .reactor _ _ | .enqueuePacket _ | .unsubscribeAll | .stopServer => none

def deletedReactors (busy : BusyServer) : List CallEvent → List Reactor
  | [] => []
  | event :: events =>
      (busy.deleted event).toList ++ deletedReactors (callMachine.step busy event).1 events

noncomputable def written (busy : BusyServer) : ℕ := ∑ᶠ c, (busy.writtenBy c).length

def writtenByAll (reactors : List Reactor) : ℕ :=
  (reactors.map (fun reactor => (writtenPackets reactor.calls).length)).sum

/-- The account of a step: the counter rises by what the reactors, live or deleted, have
passed to `StartWrite` in it. -/
def Counts (busy next : BusyServer) (gone : List Reactor) : Prop :=
  next.server.service.mMetrics.mSentPacketsCounter + busy.written =
    busy.server.service.mMetrics.mSentPacketsCounter + next.written + writtenByAll gone

theorem Counts.of_same {next : BusyServer}
    (reactors : ∀ c, next.writtenBy c = busy.writtenBy c)
    (sent : next.server.service.mMetrics.mSentPacketsCounter =
      busy.server.service.mMetrics.mSentPacketsCounter) : busy.Counts next [] := by
  have same : next.written = busy.written := finsum_congr (fun c => congrArg _ (reactors c))
  unfold Counts writtenByAll
  rw [same, sent]
  simp

theorem Counts.of_adds (finite : {c | busy.server.reactors c ≠ none}.Finite)
    (there : busy.server.reactors c = some reactor) {session : Session} {added : List ReactorCall}
    (adds : Session.Adds ⟨busy.server.service, reactor⟩ session added) {next : BusyServer}
    {last : Option Reactor} {gone : List Reactor}
    (updated : next.server = ⟨session.service, Function.update busy.server.reactors c last⟩)
    (left : (last = some session.reactor ∧ gone = []) ∨ (last = none ∧ gone = [session.reactor])) :
    busy.Counts next gone := by
  have support : (fun c => (busy.writtenBy c).length).support.Finite := by
    refine finite.subset (fun d some_ absent => some_ ?_)
    simp only [writtenBy, absent]
    rfl
  have family : (fun d => (next.writtenBy d).length) = Function.update
      (fun d => (busy.writtenBy d).length) c (next.writtenBy c).length := by
    funext d
    by_cases own : d = c
    · subst own
      rw [Function.update_self]
    · rw [Function.update_of_ne own]
      simp only [writtenBy, updated, Function.update_of_ne own]
  have total : (∑ᶠ d, (next.writtenBy d).length) + (writtenPackets reactor.calls).length =
      (∑ᶠ d, (busy.writtenBy d).length) + (next.writtenBy c).length := by
    have updates := finsum_update_add support c (next.writtenBy c).length
    rwa [← family, writtenBy_of_live there] at updates
  have calls := congrArg List.length (congrArg writtenPackets adds.calls)
  rw [writtenPackets_append, List.length_append] at calls
  have sent := adds.sent
  unfold Counts written
  rw [updated]
  rcases left with ⟨rfl, rfl⟩ | ⟨rfl, rfl⟩
  · have here : (next.writtenBy c).length = (writtenPackets session.reactor.calls).length := by
      simp only [writtenBy, updated, Function.update_self]
    simp only [writtenByAll, List.map_nil, List.sum_nil]
    simp only at sent calls
    omega
  · have here : (next.writtenBy c).length = 0 := by
      simp only [writtenBy, updated, Function.update_self]
      rfl
    simp only [writtenByAll, List.map_cons, List.map_nil, List.sum_cons, List.sum_nil]
    simp only at sent calls
    omega

/-- What a step is for the calls on gRPC: it runs a section or a callback of one reactor,
which it may delete, or neither a call nor a counter changes. -/
inductive Runs (busy : BusyServer) (event : CallEvent) (next : BusyServer) : Prop where
  | nothing (written : ∀ c, next.writtenBy c = busy.writtenBy c)
      (sent : next.server.service.mMetrics.mSentPacketsCounter =
        busy.server.service.mMetrics.mSentPacketsCounter)
      (options : next.server.service.mOptions = busy.server.service.mOptions)
      (kept : busy.deleted event = none)
  | reactor {c : ContextAddress} {reactor : Reactor} {session : Session}
      {added : List ReactorCall} {last : Option Reactor}
      (there : busy.server.reactors c = some reactor)
      (adds : Session.Adds ⟨busy.server.service, reactor⟩ session added)
      (updated : next.server = ⟨session.service, Function.update busy.server.reactors c last⟩)
      (left : (last = some session.reactor ∧ busy.deleted event = none) ∨
        (last = none ∧ busy.deleted event = some session.reactor))

theorem Runs.react (regular : busy.Regular) (c d : ContextAddress) {event delivered : ReactorEvent}
    (other : event ≠ .onDone) :
    busy.Runs (.reactor d delivered) { busy with server := busy.server.react c event } := by
  cases there : busy.server.reactors c with
  | none =>
      refine .nothing (fun d => ?_) ?_ ?_ rfl
      · simp only [writtenBy, Server.react, there]
      · simp only [Server.react, there]
      · simp only [Server.react, there]
  | some reactor =>
      obtain ⟨added, adds⟩ := Session.Adds.react ⟨busy.server.service, reactor⟩ event
      have live := (regular.tidy.live c reactor there).2
      refine .reactor there adds (Server.react_of_live event there) (.inl ⟨?_, rfl⟩)
      rw [Session.react_done _ other, live]
      rfl

/-- Every step of a regular server is one of these. -/
theorem Regular.runs (regular : busy.Regular) (event : CallEvent) :
    busy.Runs event (callMachine.step busy event).1 := by
  cases event with
  | connect call =>
      change busy.Runs _ (busy.connect call)
      unfold BusyServer.connect
      split
      · exact .nothing (fun _ => rfl) rfl rfl rfl
      · rename_i free
        refine .nothing (fun c => ?_) rfl rfl rfl
        -- the new reactor has written nothing, as the context before it
        by_cases own : c = call.context
        · subst own
          simp only [writtenBy, Function.update_self, free, Session.arrive_calls]
          split <;> rfl
        · simp only [writtenBy, Function.update_of_ne own]
  | proceed c =>
      change busy.Runs _ (busy.proceed c)
      cases there : busy.server.reactors c with
      | none =>
          simp only [BusyServer.proceed, there]
          exact .nothing (fun _ => rfl) rfl rfl (by simp only [deleted, there])
      | some reactor =>
          cases sections : busy.sections c with
          | nil =>
              simp only [BusyServer.proceed, there, sections]
              exact .nothing (fun _ => rfl) rfl rfl (by simp only [deleted, there, sections])
          | cons part rest =>
              obtain ⟨added, adds⟩ := Session.Adds.runSection ⟨busy.server.service, reactor⟩ part
              rw [proceed_of_live there sections]
              refine .reactor there adds rfl ?_
              simp only [deleted, there, sections]
              split
              · exact .inr ⟨rfl, rfl⟩
              · exact .inl ⟨rfl, rfl⟩
  | reactor c event =>
      change busy.Runs _ (busy.react c event)
      cases event with
      | cancel => exact .react regular c c (by simp)
      | onDone =>
          simp only [BusyServer.react]
          split
          · exact .nothing (fun _ => rfl) rfl rfl rfl
          · split <;> exact .nothing (fun _ => rfl) rfl rfl rfl
      | pass | onWriteDone | onCancel =>
          simp only [BusyServer.react]
          split
          · exact .react regular c c (by simp)
          · exact .nothing (fun _ => rfl) rfl rfl rfl
  | enqueuePacket packet => exact .nothing (fun _ => rfl) rfl rfl rfl
  | unsubscribeAll => exact .nothing (fun _ => rfl) rfl rfl rfl
  | stopServer => exact .nothing (fun _ => rfl) rfl rfl rfl

theorem mOptions_run (regular : busy.Regular) (events : List CallEvent) :
    (callMachine.run busy events).server.service.mOptions = busy.server.service.mOptions := by
  have kept := callMachine.run_invariant (fun now => now.Regular ∧
    now.server.service.mOptions = busy.server.service.mOptions) ?_ ⟨regular, rfl⟩ events
  · exact kept.2
  · rintro now event ⟨regular, same⟩
    refine ⟨regular.step event, Eq.trans ?_ same⟩
    cases regular.runs event with
    | nothing written sent options => exact options
    | reactor there adds updated =>
        rw [updated]
        exact adds.options

/-- Every step of a regular server keeps the account. -/
theorem Counts.step (regular : busy.Regular) (finite : {c | busy.server.reactors c ≠ none}.Finite)
    (event : CallEvent) :
    busy.Counts (callMachine.step busy event).1 (busy.deleted event).toList := by
  cases regular.runs event with
  | nothing written sent options kept =>
      rw [kept]
      exact of_same written sent
  | reactor there adds updated left =>
      refine of_adds finite there adds updated ?_
      rcases left with ⟨last, kept⟩ | ⟨last, gone⟩
      · exact .inl ⟨last, by rw [kept]; rfl⟩
      · exact .inr ⟨last, by rw [gone]; rfl⟩

theorem Counts.trans {next last : BusyServer} {gone more : List Reactor}
    (h : busy.Counts next gone) (h' : next.Counts last more) : busy.Counts last (gone ++ more) := by
  unfold Counts writtenByAll at *
  rw [List.map_append, List.sum_append]
  omega

theorem Counts.run (regular : busy.Regular) (finite : {c | busy.server.reactors c ≠ none}.Finite)
    (events : List CallEvent) :
    busy.Counts (callMachine.run busy events) (busy.deletedReactors events) := by
  induction events generalizing busy with
  | nil => exact of_same (fun _ => rfl) rfl
  | cons event events ih =>
      rw [Machine.run_cons]
      exact (step regular finite event).trans (ih (regular.step event) (finite_step finite event))

end BusyServer

/-- In every run of the server, the counter of sent packets is the number of packets that
its reactors, those that live and those that it has deleted, have passed to `StartWrite`. -/
theorem sent_counter_counts_writes (options : ServerOptions) (streamOptions : StreamOptions)
    (events : List CallEvent) :
    let busy := callMachine.run (BusyServer.start options streamOptions) events
    busy.server.service.mMetrics.mSentPacketsCounter = busy.written +
      BusyServer.writtenByAll ((BusyServer.start options streamOptions).deletedReactors events) := by
  have account := BusyServer.Counts.run (BusyServer.start_regular options streamOptions)
    (BusyServer.finite_live options streamOptions []) events
  have none_ : (BusyServer.start options streamOptions).written = 0 := finsum_zero
  unfold BusyServer.Counts at account
  rw [none_] at account
  simpa [BusyServer.start, Server.start] using account

end UDataPacketService
