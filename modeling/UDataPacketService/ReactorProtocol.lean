import UDataPacketService.ReactorModel
import UDataPacketService.SubscriberCount

/-! The order in which a reactor calls `Finish` and `StartWrite`. The constructor
is summarized by the statuses it finishes with; after an admitted call every
callback keeps the reactor orderly. -/
namespace UDataPacketService

/-- `Finish` is called at most once, and `StartWrite` never after it. -/
structure ReactorProtocol (calls : List ReactorCall) : Prop where
  finishOnce : calls.countP ReactorCall.isFinish ≤ 1
  noWriteAfterFinish : ∀ earlier later status packet,
    calls = earlier ++ .finish status :: later → .startWrite packet ∉ later

def Finished (calls : List ReactorCall) : Prop := ∃ status, .finish status ∈ calls

theorem finished_iff_any (calls : List ReactorCall) :
    calls.any ReactorCall.isFinish = true ↔ Finished calls := by
  rw [List.any_eq_true]
  constructor
  · rintro ⟨call, member, finish⟩
    cases call with
    | finish status => exact ⟨status, member⟩
    | startWrite packet => cases finish
  · rintro ⟨status, member⟩
    exact ⟨_, member, rfl⟩

@[simp] theorem finished_concat (calls : List ReactorCall) (call : ReactorCall) :
    Finished (calls ++ [call]) ↔ Finished calls ∨ call.isFinish = true := by
  rw [← finished_iff_any, ← finished_iff_any, List.any_append, Bool.or_eq_true]
  simp

theorem protocol_concat (calls : List ReactorCall) (call : ReactorCall) :
    ReactorProtocol (calls ++ [call]) ↔ ReactorProtocol calls ∧ ¬Finished calls := by
  constructor
  · intro h
    have quiet : ¬Finished calls := by
      rintro ⟨status, member⟩
      cases call with
      | finish last =>
          have once := h.finishOnce
          have one : 0 < calls.countP ReactorCall.isFinish :=
            List.countP_pos_iff.mpr ⟨_, member, rfl⟩
          rw [List.countP_append, List.countP_singleton] at once
          have last : (ReactorCall.finish last).isFinish = true := rfl
          rw [if_pos last] at once
          omega
      | startWrite packet =>
          obtain ⟨earlier, later, rfl⟩ := List.append_of_mem member
          refine h.noWriteAfterFinish earlier (later ++ [.startWrite packet]) status packet ?_ ?_
          · simp
          · simp
    refine ⟨⟨?_, ?_⟩, quiet⟩
    · have once := h.finishOnce
      rw [List.countP_append] at once
      omega
    · rintro earlier later status packet rfl
      exact absurd ⟨status, by simp⟩ quiet
  · rintro ⟨h, quiet⟩
    have none : calls.countP ReactorCall.isFinish = 0 := by
      rw [List.countP_eq_zero]
      intro call member finish
      exact quiet ((finished_iff_any calls).mp (List.any_eq_true.mpr ⟨call, member, finish⟩))
    refine ⟨?_, ?_⟩
    · rw [List.countP_append, none]
      have := List.countP_le_length (p := ReactorCall.isFinish) (l := [call])
      simpa using this
    · intro earlier later status packet split member
      rcases List.append_eq_append_iff.mp split with ⟨middle, rfl, tail⟩ | ⟨middle, rfl, tail⟩
      · -- the finish would be the last call
        cases middle with
        | nil =>
            rw [List.nil_append, List.cons.injEq] at tail
            rw [← tail.2] at member
            cases member
        | cons first middle =>
            have := congrArg List.length tail
            simp at this
      · cases middle with
        | nil =>
            rw [List.nil_append, List.cons.injEq] at tail
            rw [tail.2] at member
            cases member
        | cons first middle =>
            obtain ⟨rfl, -⟩ := List.cons.inj tail
            exact quiet ⟨status, by simp⟩

/-- No entry of the metadata is the configured access token, although one is asked for. -/
def IncomingCall.Unauthenticated (call : IncomingCall) (options : ServerOptions) : Prop :=
  call.isSecureConnection = true ∧ ∃ accessToken ∈ options.mGRPCOptions.mAccessToken,
    ∀ item ∈ call.clientMetadata, ¬(item.1 = "x-custom-auth-token" ∧ item.2 = accessToken)

instance (call : IncomingCall) (options : ServerOptions) :
    Decidable (call.Unauthenticated options) := by
  unfold IncomingCall.Unauthenticated
  infer_instance

def Service.AtCapacity (service : Service) : Prop :=
  service.mOptions.mMaximumNumberOfSubscribers ≤
    service.mSubscriptionManager.getNumberOfSubscribers.1

instance (service : Service) : Decidable service.AtCapacity :=
  inferInstanceAs (Decidable (_ ≤ _))

def IncomingCall.Admitted (call : IncomingCall) (service : Service) : Prop :=
  ¬call.Unauthenticated service.mOptions ∧ ¬service.AtCapacity ∧ call.request ≠ .subscribe []

theorem validateSubscriber_eq_false_iff (clientMetadata : List (String × String))
    {accessToken : String} (h : accessToken ≠ "") :
    validateSubscriber clientMetadata accessToken = false ↔
      ∀ item ∈ clientMetadata, ¬(item.1 = "x-custom-auth-token" ∧ item.2 = accessToken) := by
  simp only [validateSubscriber, if_neg h, List.any_eq_false, Bool.and_eq_true, beq_iff_eq]

namespace Session
variable (service : Service) (call : IncomingCall)

@[simp] theorem getNumberOfSubscribers_reactor (session : Session) :
    session.getNumberOfSubscribers.2.reactor = session.reactor := rfl

def checkStatuses : List Status :=
  (if call.Unauthenticated service.mOptions then [.rejected] else []) ++
    (if service.AtCapacity then [.maxSubscribersHit] else [])

/-- The statuses with which the constructor finishes before it starts to write. -/
def registerStatuses : List Status :=
  checkStatuses service call ++
    (if call.request = .subscribe []
      then [.noStreamsSpecified, .noStreamsCreated, .failedToSubscribe] else [])

/-- The call that subscribes the context, unless the request selects nothing. -/
def subscribing : Option Operation :=
  match call.request with
  | .subscribe [] => none
  | .subscribe selections =>
      some (.subscribe call.context (SubscriptionManager.distinctIdentifiers selections))
  | .subscribeToAll => some (.subscribeToAll call.context)

def registerOperations : List Operation :=
  .getNumberOfSubscribers ::
    (match subscribing call with
      | none => []
      | some operation => [operation, .getNumberOfSubscribers])

theorem authenticate_eq (session : Session) :
    session.authenticate call = if call.Unauthenticated session.service.mOptions
      then session.finish .rejected else session := by
  unfold authenticate
  cases ht : session.service.mOptions.mGRPCOptions.mAccessToken with
  | none => simp [IncomingCall.Unauthenticated, ht]
  | some accessToken =>
      have nonempty := session.service.mOptions.mGRPCOptions.nonempty accessToken ht
      have check := validateSubscriber_eq_false_iff call.clientMetadata nonempty
      have token : call.Unauthenticated session.service.mOptions ↔
          call.isSecureConnection = true ∧
            validateSubscriber call.clientMetadata accessToken = false := by
        rw [check]
        simp [IncomingCall.Unauthenticated, ht]
      simp only [token]
      cases call.isSecureConnection <;>
        cases validateSubscriber call.clientMetadata accessToken <;> simp

/-- The session as the checks of the constructor leave it. -/
theorem checks_eq :
    ((⟨service, { mContextAddress := call.context, isCancelled := call.isCancelled }⟩ :
      Session).authenticate call).checkCapacity =
      ⟨{ service with
          mSubscriptionManager := service.mSubscriptionManager.getNumberOfSubscribers.2 },
        { mContextAddress := call.context
          isCancelled := call.isCancelled
          calls := (checkStatuses service call).map .finish }⟩ := by
  rw [authenticate_eq, checkStatuses]
  by_cases unauthenticated : call.Unauthenticated service.mOptions <;>
    by_cases full : service.mOptions.mMaximumNumberOfSubscribers ≤
      service.mSubscriptionManager.getNumberOfSubscribers.1 <;>
    simp [unauthenticated, full, checkCapacity, finish, getNumberOfSubscribers, Service.AtCapacity]

theorem distinctIdentifiers_ne_nil {selections : List StreamIdentifier} (h : selections ≠ []) :
    SubscriptionManager.distinctIdentifiers selections ≠ [] := by
  obtain ⟨first, rest, rfl⟩ := List.exists_cons_of_ne_nil h
  intro empty
  have member := (SubscriptionManager.mem_distinctNames (first :: rest) first.toName).mpr
    (List.mem_map_of_mem List.mem_cons_self)
  rw [SubscriptionManager.distinctNames, empty] at member
  cases member

/-- A request that selects streams is always taken. -/
theorem subscribe_settle (manager : SubscriptionManager) {selections : List StreamIdentifier}
    (h : selections ≠ []) :
    manager.subscribe call.context (SubscriptionManager.distinctIdentifiers selections) =
      .ok (managerMachine.step manager (.subscribe call.context
        (SubscriptionManager.distinctIdentifiers selections))).1 := by
  have once := distinctIdentifiers_ne_nil h
  have twice := distinctIdentifiers_ne_nil once
  simp only [managerMachine, SubscriptionManager.subscribe, if_neg once, if_neg twice, Reply.settle]

theorem register_reactor :
    (register service call).reactor =
      { mContextAddress := call.context
        isCancelled := call.isCancelled
        mSubscribed := decide (call.request ≠ .subscribe [])
        calls := (registerStatuses service call).map .finish } := by
  rw [register, checks_eq, registerStatuses]
  cases call.request with
  | subscribeToAll => simp [subscribeToAll, subscribed, getNumberOfSubscribers]
  | subscribe selections =>
      cases selections with
      | nil =>
          simp [subscribeToSelections, finish, SubscriptionManager.subscribe,
            SubscriptionManager.distinctIdentifiers]
      | cons first rest =>
          have some := List.cons_ne_nil first rest
          simp [subscribeToSelections, distinctIdentifiers_ne_nil some, subscribe_settle _ _ some,
            subscribed, getNumberOfSubscribers]

theorem register_service :
    (register service call).service.mOptions = service.mOptions ∧
      (register service call).service.mKeepRunning = service.mKeepRunning ∧
      (register service call).service.mSubscriptionManager =
        managerMachine.run service.mSubscriptionManager (registerOperations call) := by
  rw [register, checks_eq, registerOperations, subscribing]
  cases call.request with
  | subscribeToAll => exact ⟨rfl, rfl, rfl⟩
  | subscribe selections =>
      cases selections with
      | nil => exact ⟨rfl, rfl, rfl⟩
      | cons first rest =>
          have some := List.cons_ne_nil first rest
          simp only [subscribeToSelections, if_neg some, if_neg (distinctIdentifiers_ne_nil some),
            subscribe_settle _ _ some]
          exact ⟨rfl, rfl, rfl⟩

end Session

namespace Session

/-- What the calls so far, the loop and the writes in flight have to do with each other. -/
structure Orderly (reactor : Reactor) : Prop where
  protocol : ReactorProtocol reactor.calls
  finished : Finished reactor.calls → reactor.polling = false ∧ reactor.outstandingWrites = 0
  polling : reactor.polling = true →
    reactor.mWriteInProgress = false ∧ reactor.outstandingWrites = 0
  single : reactor.outstandingWrites ≤ 1

theorem unsubscribe_reactor (session : Session) :
    session.unsubscribe.reactor = { session.reactor with mSubscribed := false } := by
  unfold unsubscribe
  split
  · rfl
  · rename_i idle
    rw [Bool.not_eq_true] at idle
    rw [← idle]

/-- Every way out of the loop finishes the RPC. -/
theorem leave_reactor (session : Session) :
    session.leave.reactor =
      { session.reactor with
        mSubscribed := false
        polling := false
        calls := session.reactor.calls ++
          [.finish (if session.reactor.isCancelled then ⟨.cancelled, ""⟩ else ⟨.ok, ""⟩)] } := by
  simp only [leave, finish, unsubscribe_reactor]

theorem Orderly.nextWritePass {session : Session} (h : Orderly session.reactor)
    (loops : session.reactor.polling = true) : Orderly session.nextWritePass.reactor := by
  have open_ : ¬Finished session.reactor.calls := fun finished => by
    rw [(h.finished finished).1] at loops
    cases loops
  obtain ⟨idle, none⟩ := h.polling loops
  unfold Session.nextWritePass
  split
  · rw [leave_reactor]
    refine ⟨(protocol_concat _ _).mpr ⟨h.protocol, open_⟩, fun _ => ⟨rfl, none⟩, nofun, h.single⟩
  · split
    · exact ⟨h.protocol, h.finished, fun _ => ⟨idle, none⟩, h.single⟩
    · rw [if_neg (by rw [idle]; exact Bool.false_ne_true)]
      refine ⟨(protocol_concat _ _).mpr ⟨h.protocol, open_⟩, ?_, nofun, ?_⟩
      · intro finished
        rcases (finished_concat _ _).mp finished with old | new
        · exact absurd old open_
        · cases new
      · exact (congrArg Nat.succ none).le

theorem Orderly.nextWrite {session : Session} (h : Orderly session.reactor)
    (open_ : ¬Finished session.reactor.calls) (idle : session.reactor.mWriteInProgress = false)
    (none : session.reactor.outstandingWrites = 0) : Orderly session.nextWrite.reactor :=
  have entered : Orderly session.enterLoop.reactor :=
    ⟨h.protocol, fun finished => absurd finished open_, fun _ => ⟨idle, none⟩, h.single⟩
  entered.nextWritePass rfl

theorem Orderly.finish {session : Session} (protocol : ReactorProtocol session.reactor.calls)
    (open_ : ¬Finished session.reactor.calls) (quiet : session.reactor.polling = false)
    (none : session.reactor.outstandingWrites = 0) (status : Status) :
    Orderly (session.finish status).reactor where
  protocol := (protocol_concat _ _).mpr ⟨protocol, open_⟩
  finished := fun _ => ⟨quiet, none⟩
  polling := fun loops => absurd (quiet.symm.trans loops) Bool.false_ne_true
  single := none.le.trans (Nat.zero_le 1)

theorem Orderly.react {session : Session} (h : Orderly session.reactor) (event : ReactorEvent) :
    Orderly (session.react event).reactor := by
  unfold Session.react
  split
  · exact h
  · rename_i live
    obtain ⟨-, deliverable⟩ := not_or.mp live
    rw [not_not] at deliverable
    cases event with
    | cancel => exact ⟨h.protocol, h.finished, h.polling, h.single⟩
    | pass => exact h.nextWritePass deliverable
    | onWriteDone ok =>
        obtain ⟨pending, quiet⟩ := deliverable
        have open_ : ¬Finished session.reactor.calls := fun finished => by
          rw [(h.finished finished).2] at pending
          exact lt_irrefl 0 pending
        have last : session.reactor.outstandingWrites - 1 = 0 := by
          have := h.single
          omega
        cases ok with
        | true =>
            exact Orderly.nextWrite ⟨h.protocol, fun finished => absurd finished open_,
              fun _ => ⟨rfl, last⟩, (last.le.trans (Nat.zero_le _))⟩ open_ rfl last
        | false =>
            have finished (status : Status) :
                Orderly (session.answerWrite.finish status).reactor := by
              apply Orderly.finish
              · exact h.protocol
              · exact open_
              · exact quiet
              · exact last
            simp only [onWriteDone, Bool.false_eq_true, if_false]
            split
            · exact finished _
            · exact finished _
    | onCancel =>
        simp only [onCancel, unsubscribe_reactor]
        exact ⟨h.protocol, h.finished, h.polling, h.single⟩
    | onDone =>
        simp only [onDone, getNumberOfSubscribers_reactor, unsubscribe_reactor]
        exact ⟨h.protocol, h.finished, h.polling, h.single⟩

theorem Orderly.step {session : Session} (h : Orderly session.reactor) (event : SessionEvent) :
    Orderly (sessionMachine.step session event).1.reactor := by
  cases event with
  | reactor event => exact h.react event
  | stopServer => exact h
  | environment operation =>
      simp only [sessionMachine]
      split <;> exact h

theorem registerStatuses_eq_nil_iff (service : Service) (call : IncomingCall) :
    registerStatuses service call = [] ↔ call.Admitted service := by
  simp [registerStatuses, checkStatuses, IncomingCall.Admitted]

/-- A refused call is finished by the time its constructor starts to write. -/
theorem finished_register {service : Service} {call : IncomingCall}
    (refused : ¬call.Admitted service) : Finished (register service call).reactor.calls := by
  rw [← registerStatuses_eq_nil_iff] at refused
  obtain ⟨status, rest, some⟩ := List.exists_cons_of_ne_nil refused
  rw [register_reactor, some]
  exact ⟨status, List.mem_cons_self⟩

/-- With nothing queued, the constructor leaves or goes on polling. -/
theorem construct_eq (service : Service) (call : IncomingCall) :
    construct service call =
      if !service.mKeepRunning || call.isCancelled then
        (register service call).enterLoop.leave
      else (register service call).enterLoop.fetchPackets := by
  have running : (register service call).enterLoop.service.mKeepRunning = service.mKeepRunning :=
    (register_service service call).2.1
  have reactor : (register service call).enterLoop.reactor.isCancelled = call.isCancelled ∧
      (register service call).enterLoop.reactor.mPacketsQueue = [] := by
    simp only [enterLoop, register_reactor, and_self]
  rw [construct, nextWrite, nextWritePass, running, reactor.1, reactor.2]

theorem pass_after_stop {session : Session} (loops : session.reactor.polling = true)
    (live : session.reactor.done = false) :
    sessionMachine.run session [.stopServer, .reactor .pass] = session.stopServer.leave := by
  have deliverable : ReactorEvent.Deliverable session.stopServer.reactor .pass := loops
  have open_ : ¬(session.stopServer.reactor.done = true ∨
      ¬ReactorEvent.Deliverable session.stopServer.reactor .pass) := by
    rintro (done | blocked)
    · exact Bool.false_ne_true (live.symm.trans done)
    · exact blocked deliverable
  change session.stopServer.react .pass = _
  rw [react, if_neg open_]
  rfl

end Session

/-- The protocol holds over the whole life of a reactor exactly when no check of its
constructor failed: a check that fails calls `Finish` and does not return. -/
theorem reactor_protocol_iff_admitted (service : Service) (call : IncomingCall) :
    (∀ events, ReactorProtocol
      (sessionMachine.run (Session.construct service call) events).reactor.calls) ↔
      call.Admitted service := by
  constructor
  · intro always
    by_contra refused
    have finished := Session.finished_register refused
    have left : ∀ session : Session, Finished session.reactor.calls →
        ¬ReactorProtocol session.leave.reactor.calls := by
      intro session finished protocol
      rw [Session.leave_reactor] at protocol
      exact ((protocol_concat _ _).mp protocol).2 finished
    rw [Session.construct_eq] at always
    split at always
    · exact left (Session.register service call).enterLoop finished (always [])
    · -- the server stops while the loop of the refused call goes on
      have stopped := always [.stopServer, .reactor .pass]
      rw [Session.pass_after_stop rfl (by
        rw [Session.fetchPackets, Session.enterLoop, Session.register_reactor])] at stopped
      exact left (Session.register service call).enterLoop.fetchPackets.stopServer finished stopped
  · intro admitted events
    have statuses := (Session.registerStatuses_eq_nil_iff service call).mpr admitted
    have fresh : Session.Orderly (Session.construct service call).reactor := by
      rw [Session.construct]
      apply Session.Orderly.nextWrite
      · rw [Session.register_reactor, statuses]
        exact ⟨⟨Nat.zero_le 1, by simp⟩, fun finished => by simp [Finished] at finished, nofun,
          Nat.zero_le 1⟩
      · rw [Session.register_reactor, statuses]
        simp [Finished]
      · rw [Session.register_reactor]
      · rw [Session.register_reactor]
    exact (sessionMachine.run_invariant (fun session => Session.Orderly session.reactor)
      (fun session event h => h.step event) fresh events).protocol

/-- A request without selections is finished three times by its constructor. -/
theorem reactor_finishes_again :
    ¬ReactorProtocol (sessionMachine.run (Session.construct
      { mOptions := {}, mSubscriptionManager := .fresh {} }
      { context := 7, request := .subscribe [] }) []).reactor.calls := by
  intro protocol
  have once := protocol.finishOnce
  revert once
  set_option maxRecDepth 4000 in decide

end UDataPacketService
