import UDataPacketService.Authentication
import UDataPacketService.SubscriptionOrder

/-! Requests with a selection that lacks a field. The constructor of `Subscribe` refuses
them where `toName` throws, which it never does, so such a selection is registered under
the name it has. -/
namespace UDataPacketService
open Std (ExtTreeMap ExtTreeSet)

/-- The selection has a network, a station and a channel. -/
def StreamIdentifier.Complete (selection : StreamIdentifier) : Prop :=
  selection.network ≠ "" ∧ selection.station ≠ "" ∧ selection.channel ≠ ""

instance (selection : StreamIdentifier) : Decidable selection.Complete :=
  inferInstanceAs (Decidable (_ ∧ _))

/-- The names for which a context is subscribed or has a pending request. -/
def SubscriptionManager.registeredNames (c : ContextAddress) (manager : SubscriptionManager) :
    Set String :=
  { name | name ∈ manager.mActiveSubscriptionsMap[c]?.getD ∅ ∨
    name ∈ manager.mPendingSubscriptionRequests[c]?.getD ∅ }

/-- The names are those of the selections, and no further stream is waited for. -/
def SubscriptionManager.RegisteredFor (manager : SubscriptionManager) (c : ContextAddress)
    (selections : List StreamIdentifier) : Prop :=
  manager.registeredNames c = { name | name ∈ selections.map StreamIdentifier.toName } ∧
    c ∉ manager.mPendingSubscribeToAllRequests

/-- The statuses with which a reactor called `Finish`. -/
def finishStatuses (calls : List ReactorCall) : List Status :=
  calls.filterMap (fun | .finish status => some status | .startWrite _ => none)

/-- The RPC is finished, and with `INVALID_ARGUMENT` whichever of its calls of `Finish`
gRPC takes. -/
def EndsInvalid (statuses : List Status) : Prop :=
  statuses ≠ [] ∧ ∀ status ∈ statuses, status.code = .invalidArgument

namespace Session

/-- The status behind the loop of `nextWrite`. -/
def leaveStatus (isCancelled : Bool) : Status := if isCancelled then ⟨.cancelled, ""⟩ else ⟨.ok, ""⟩

/-- A constructor that has registered its context polls. `ServerImpl::stop` clears the flag
before it calls `unsubscribeAll`. -/
def Polls (session : Session) (event : SessionEvent) : Prop :=
  session.reactor.polling = true ∧
    (event = .environment .unsubscribeAll → session.service.mKeepRunning = false)

/-- The constructor behind its registration, and behind what happened while it polled. -/
def polled (service : Service) (call : IncomingCall) (events : List SessionEvent) : Session :=
  sessionMachine.run (register service call).enterLoop events

/-- The constructor returns in this session: behind its registration it has polled beside
the rest of the service, until its loop was left or has written. -/
def Constructed (service : Service) (call : IncomingCall) (session : Session) : Prop :=
  ∃ events, sessionMachine.Admissible Polls (register service call).enterLoop events ∧
    session = polled service call events ∧ session.reactor.polling = false

end Session

/-- A request with an incomplete selection, or with none, ends with `INVALID_ARGUMENT` and
leaves nothing; any other one that is admitted is registered for the names of its selections,
when its write loop starts, and when its constructor returns unless the loop was left or the
call cancelled. -/
structure RefusesAsAWhole (service : Service) (call : IncomingCall)
    (selections : List StreamIdentifier) (session : Session) : Prop where
  refuses : ¬(selections ≠ [] ∧ ∀ selection ∈ selections, selection.Complete) →
    EndsInvalid (finishStatuses session.reactor.calls) ∧
      session.service.mSubscriptionManager.Free call.context
  registers : (selections ≠ [] ∧ ∀ selection ∈ selections, selection.Complete) →
    call.Admitted service →
      (Session.register service call).service.mSubscriptionManager.RegisteredFor call.context
          selections ∧
        (session.reactor.mSubscribed = true →
          session.service.mSubscriptionManager.RegisteredFor call.context selections)

/-- The request has selections, each of them is complete, and the context of an admitted
request was registered for nothing else. -/
structure SelectsCompletely (service : Service) (call : IncomingCall)
    (selections : List StreamIdentifier) : Prop where
  selects : selections ≠ []
  complete : ∀ selection ∈ selections, selection.Complete
  others : call.Admitted service →
    service.mSubscriptionManager.registeredNames call.context ⊆
        { name | name ∈ selections.map StreamIdentifier.toName } ∧
      call.context ∉ service.mSubscriptionManager.mPendingSubscribeToAllRequests

namespace SubscriptionManager
variable {manager : SubscriptionManager} {c : ContextAddress}

theorem registeredNames_eq_view : manager.registeredNames c =
    { name | name ∈ (manager.view c).active.getD ∅ ∨ name ∈ (manager.view c).pending.getD ∅ } :=
  rfl

theorem registeredFor_iff_view {selections : List StreamIdentifier} :
    manager.RegisteredFor c selections ↔
      ({ name | name ∈ (manager.view c).active.getD ∅ ∨ name ∈ (manager.view c).pending.getD ∅ } :
          Set String) = { name | name ∈ selections.map StreamIdentifier.toName } ∧
        (manager.view c).pendingAll = false := by
  rw [RegisteredFor, registeredNames_eq_view, view, ← Bool.not_eq_true,
    ExtTreeSet.mem_iff_contains]

/-- What a context is registered for stays when a packet creates a stream that it waits for. -/
theorem RegisteredFor.enqueue {selections : List StreamIdentifier} {packet : Packet}
    (h : manager.RegisteredFor c selections) (coherent : manager.Coherent) :
    ({ name | name ∈ ((manager.view c).enqueue packet).active.getD ∅ ∨
          name ∈ ((manager.view c).enqueue packet).pending.getD ∅ } : Set String) =
        { name | name ∈ selections.map StreamIdentifier.toName } ∧
      ((manager.view c).enqueue packet).pendingAll = false := by
  obtain ⟨names, waits⟩ := registeredFor_iff_view.mp h
  have receives := (coherent c).receives packet
  refine ⟨?_, receives.pendingAll.trans waits⟩
  rw [← names]
  ext name
  rw [Set.mem_ofPred_eq, Set.mem_ofPred_eq, receives.active, receives.pending]
  constructor
  · rintro ((active | ⟨-, -, all | pending⟩) | ⟨pending, -⟩)
    · exact .inl active
    · rw [waits] at all
      cases all
    · exact .inr pending
    · exact .inr pending
  · rintro (active | pending)
    · exact .inl (.inl active)
    · by_cases created : packet.toName = name
      · exact .inl (.inr ⟨created, (coherent c).absent name pending, .inr pending⟩)
      · exact .inr ⟨pending, created⟩

theorem RegisteredFor.step {selections : List StreamIdentifier} {operation : Operation}
    (h : manager.RegisteredFor c selections) (coherent : manager.Coherent)
    (other : operation.client ≠ some c) (kept : operation ≠ .unsubscribeAll) :
    (managerMachine.step manager operation).1.RegisteredFor c selections := by
  have apart {d : ContextAddress} (client : operation.client = some d) : d ≠ c := by
    rintro rfl
    exact other client
  rw [registeredFor_iff_view, view_managerMachine_step]
  cases operation with
  | enqueuePacket packet =>
      simp only [ClientView.step]
      split
      · exact h.enqueue coherent
      · exact registeredFor_iff_view.mp h
  | subscribe | subscribeToAll | getPackets | unsubscribeFromAll =>
      rw [ClientView.step, if_neg (apart rfl)]
      exact registeredFor_iff_view.mp h
  | unsubscribeAll => exact absurd rfl kept
  | getNumberOfSubscribers => exact registeredFor_iff_view.mp h

theorem RegisteredFor.getPackets {selections : List StreamIdentifier}
    (h : manager.RegisteredFor c selections) :
    (manager.getPackets c).2.RegisteredFor c selections := by
  obtain ⟨active, pending, pendingAll⟩ := (manager.view c).pullAll_requests manager.walk
  rw [registeredFor_iff_view, view_getPackets, active, pending, pendingAll]
  exact registeredFor_iff_view.mp h

end SubscriptionManager

namespace Session
variable {service : Service} {call : IncomingCall} {selections : List StreamIdentifier}
  {session : Session}

theorem finishStatuses_append (calls more : List ReactorCall) :
    finishStatuses (calls ++ more) = finishStatuses calls ++ finishStatuses more :=
  List.filterMap_append

theorem finishStatuses_map (statuses : List Status) :
    finishStatuses (statuses.map .finish) = statuses := by
  rw [finishStatuses, List.filterMap_map]
  exact List.filterMap_some

/-- No check of a request with selections says that its argument is invalid. -/
theorem code_of_registerStatuses (request : call.request = .subscribe selections)
    (some : selections ≠ []) {status : Status} (member : status ∈ registerStatuses service call) :
    status.code ≠ .invalidArgument := by
  have selects : call.request ≠ .subscribe [] := by
    rw [request]
    exact fun same => some (Request.subscribe.inj same)
  have checked : status = .rejected ∨ status = .maxSubscribersHit := by
    rw [registerStatuses, checkStatuses, if_neg selects] at member
    split_ifs at member <;> simp at member <;> tauto
  rcases checked with rfl | rfl
  · decide
  · decide

theorem coherent_unsubscribe (coherent : session.service.mSubscriptionManager.Coherent) :
    session.unsubscribe.service.mSubscriptionManager.Coherent := by
  unfold unsubscribe
  split
  · exact coherent_step _ (.unsubscribeFromAll session.reactor.mContextAddress) coherent
  · exact coherent

/-- What holds while a constructor polls and when it returns. -/
structure Constructing (service : Service) (call : IncomingCall)
    (selections : List StreamIdentifier) (session : Session) : Prop where
  address : session.reactor.mContextAddress = call.context
  coherent : session.service.mSubscriptionManager.Coherent
  made : ∀ status ∈ registerStatuses service call, status ∈ finishStatuses session.reactor.calls
  statuses : ∀ status ∈ finishStatuses session.reactor.calls,
    status ∈ registerStatuses service call ∨ ∃ isCancelled, status = leaveStatus isCancelled
  running : session.reactor.polling = false → session.reactor.mSubscribed = true →
    session.service.mKeepRunning = true
  registered : (register service call).service.mSubscriptionManager.RegisteredFor call.context
      selections → session.reactor.mSubscribed = true → session.service.mKeepRunning = true →
    session.service.mSubscriptionManager.RegisteredFor call.context selections

namespace Constructing

theorem start (coherent : service.mSubscriptionManager.Coherent) :
    Constructing service call selections (register service call).enterLoop where
  address := by rw [enterLoop, register_reactor]
  coherent := coherent_register coherent
  made := by
    rw [enterLoop, register_reactor, finishStatuses_map]
    exact fun _ member => member
  statuses := by
    rw [enterLoop, register_reactor, finishStatuses_map]
    exact fun _ member => .inl member
  running := fun quiet => absurd quiet (by simp [enterLoop])
  registered := fun registered _ _ => registered

theorem leave (h : Constructing service call selections session) :
    Constructing service call selections session.leave := by
  have quits : session.leave.reactor.mSubscribed ≠ true := by simp [leave_reactor]
  have calls : finishStatuses session.leave.reactor.calls =
      finishStatuses session.reactor.calls ++ [leaveStatus session.reactor.isCancelled] := by
    rw [leave_reactor, finishStatuses_append]
    rfl
  refine ⟨?_, coherent_unsubscribe h.coherent, ?_, ?_, fun _ subscribed => absurd subscribed quits,
    fun _ subscribed => absurd subscribed quits⟩
  · rw [leave_reactor]
    exact h.address
  · intro status member
    rw [calls]
    exact List.mem_append_left _ (h.made status member)
  · intro status member
    rw [calls, List.mem_append, List.mem_singleton] at member
    rcases member with before | rfl
    · exact h.statuses status before
    · exact .inr ⟨_, rfl⟩

theorem pass (h : Constructing service call selections session) :
    Constructing service call selections session.nextWritePass := by
  unfold Session.nextWritePass
  split
  · exact h.leave
  · rename_i stays
    have running : session.service.mKeepRunning = true := by
      simp only [Bool.or_eq_true, Bool.not_eq_true', not_or, Bool.not_eq_false] at stays
      exact stays.1
    split
    · refine ⟨h.address, ?_, h.made, h.statuses, h.running, fun registered subscribed going => ?_⟩
      · exact coherent_step _ (.getPackets session.reactor.mContextAddress) h.coherent
      · have before := h.registered registered subscribed going
        rw [← h.address] at before ⊢
        exact before.getPackets
    · split
      · exact h
      · -- the constructor returns behind its first `StartWrite`
        refine ⟨h.address, h.coherent, fun status member => ?_, fun status member => ?_,
          fun _ _ => running, h.registered⟩
        · exact finishStatuses_append _ _ ▸ List.mem_append_left _ (h.made status member)
        · have before : status ∈ finishStatuses session.reactor.calls := by
            simpa [Session.startWrite, finishStatuses] using member
          exact h.statuses status before

theorem react (h : Constructing service call selections session)
    (polls : session.reactor.polling = true) (event : ReactorEvent) :
    Constructing service call selections (session.react event) := by
  unfold Session.react
  split
  · exact h
  · rename_i open_
    have deliverable := not_not.mp (not_or.mp open_).2
    cases event with
    | cancel => exact ⟨h.address, h.coherent, h.made, h.statuses, h.running, h.registered⟩
    | pass => exact h.pass
    | onCancel =>
        simp only [onCancel]
        refine ⟨?_, coherent_unsubscribe h.coherent, ?_, ?_, ?_, ?_⟩
        · rw [unsubscribe_reactor]
          exact h.address
        · rw [unsubscribe_reactor]
          exact h.made
        · rw [unsubscribe_reactor]
          exact h.statuses
        · rw [unsubscribe_reactor]
          exact fun _ subscribed => absurd subscribed Bool.false_ne_true
        · rw [unsubscribe_reactor]
          exact fun _ subscribed => absurd subscribed Bool.false_ne_true
    | onWriteDone ok => exact absurd (polls.symm.trans deliverable.2) (by simp)
    | onDone => exact absurd (polls.symm.trans deliverable.2.2) (by simp)

theorem step (event : SessionEvent) (h : Constructing service call selections session)
    (guard : session.Polls event) :
    Constructing service call selections (sessionMachine.step session event).1 := by
  cases event with
  | reactor event => exact h.react guard.1 event
  | stopServer =>
      exact ⟨h.address, h.coherent, h.made, h.statuses,
        fun quiet => absurd (guard.1.symm.trans quiet) (by simp), fun _ _ going => by cases going⟩
  | environment operation =>
      simp only [sessionMachine]
      split
      · exact h
      · rename_i other
        refine ⟨h.address, coherent_step _ operation h.coherent, h.made, h.statuses, h.running,
          fun registered subscribed going => ?_⟩
        refine (h.registered registered subscribed going).step h.coherent (h.address ▸ other) ?_
        rintro rfl
        exact Bool.false_ne_true ((guard.2 rfl).symm.trans going)

theorem of_constructed (coherent : service.mSubscriptionManager.Coherent)
    (returned : Constructed service call session) :
    Constructing service call selections session := by
  obtain ⟨events, guards, rfl, -⟩ := returned
  exact guards.invariant (Constructing service call selections)
    (fun _ event h guard => h.step event guard) (start coherent)

end Constructing

/-- The names of a request are added to what its context is registered for. -/
theorem registeredNames_register (coherent : service.mSubscriptionManager.Coherent)
    (request : call.request = .subscribe selections) (some : selections ≠ []) :
    (register service call).service.mSubscriptionManager.registeredNames call.context =
        service.mSubscriptionManager.registeredNames call.context ∪
          { name | name ∈ selections.map StreamIdentifier.toName } ∧
      (call.context ∈
          (register service call).service.mSubscriptionManager.mPendingSubscribeToAllRequests ↔
        call.context ∈ service.mSubscriptionManager.mPendingSubscribeToAllRequests) := by
  have subscribes : subscribing call = Option.some (.subscribe call.context
      (SubscriptionManager.distinctIdentifiers selections)) := by
    rw [subscribing, request]
    cases selections with
    | nil => exact absurd rfl some
    | cons => rfl
  have subscribed : Operation.Subscribes (.subscribe call.context
      (SubscriptionManager.distinctIdentifiers selections)) := trivial
  have grows := (coherent call.context).grows_step call.context
    service.mSubscriptionManager.getNumberOfSubscribers.2.walk subscribed
  have view := view_register service call call.context
  rw [subscribes] at view
  simp only at view
  rw [← view] at grows
  have names : ∀ name, name ∈ selectedNames call.context [.subscribe call.context
      (SubscriptionManager.distinctIdentifiers selections)] ↔
        name ∈ selections.map StreamIdentifier.toName := by
    intro name
    rw [← SubscriptionManager.mem_distinctNames, SubscriptionManager.distinctNames]
    simp [selectedNames]
  constructor
  · ext name
    rw [SubscriptionManager.registeredNames_eq_view, SubscriptionManager.registeredNames_eq_view,
      Set.mem_union, Set.mem_ofPred_eq, Set.mem_ofPred_eq, Set.mem_ofPred_eq, grows.active,
      grows.pending, names]
    simp only [List.mem_singleton, reduceCtorEq, or_false]
    tauto
  · have all := grows.pendingAll
    simpa [SubscriptionManager.view] using all

end Session

/-- However long its constructor polls, `Subscribe` refuses what it should refuse, and
registers the rest for nothing but its names, if and only if the request has selections, none
of them is incomplete and the context is not registered for anything else already. -/
theorem incomplete_selections_refused_iff (options : StreamOptions) (service : Service)
    (call : IncomingCall) (selections : List StreamIdentifier) (session : Session)
    (reached : managerMachine.Reachable (.fresh options) service.mSubscriptionManager)
    (request : call.request = .subscribe selections)
    (returned : Session.Constructed service call session) :
    RefusesAsAWhole service call selections session ↔
      SelectsCompletely service call selections := by
  have coherent := reached.invariant SubscriptionManager.Coherent coherent_step
    (fresh_coherent options)
  have returns : Session.Constructing service call selections session :=
    .of_constructed coherent returned
  constructor
  · intro refused
    have wellFormed : selections ≠ [] ∧ ∀ selection ∈ selections, selection.Complete := by
      by_contra malformed
      obtain ⟨finished, invalid⟩ := (refused.refuses malformed).1
      by_cases empty : selections = []
      · -- `subscribe` has thrown, and the handler has called `Finish` with its own status
        have failed : .failedToSubscribe ∈ Session.registerStatuses service call := by
          simp [Session.registerStatuses, request, empty]
        have code := invalid _ (returns.made _ failed)
        cases code
      · -- no check is about a field that is missing
        obtain ⟨status, rest, first⟩ := List.exists_cons_of_ne_nil finished
        have member : status ∈ finishStatuses session.reactor.calls :=
          first ▸ List.mem_cons_self
        rcases returns.statuses status member with check | ⟨isCancelled, rfl⟩
        · exact Session.code_of_registerStatuses request empty check (invalid status member)
        · have code := invalid _ member
          cases isCancelled <;> cases code
    refine ⟨wellFormed.1, wellFormed.2, fun admitted => ?_⟩
    obtain ⟨names, waits⟩ := (refused.registers wellFormed admitted).1
    obtain ⟨added, kept⟩ := Session.registeredNames_register coherent request wellFormed.1
    refine ⟨?_, fun waiting => waits (kept.mpr waiting)⟩
    rw [← names, added]
    exact Set.subset_union_left
  · intro selects
    refine ⟨fun malformed => absurd ⟨selects.selects, selects.complete⟩ malformed,
      fun wellFormed admitted => ?_⟩
    obtain ⟨names, waits⟩ := selects.others admitted
    obtain ⟨added, kept⟩ := Session.registeredNames_register coherent request wellFormed.1
    have registered : (Session.register service call).service.mSubscriptionManager.RegisteredFor
        call.context selections :=
      ⟨added.trans (Set.union_eq_self_of_subset_left names), fun waiting =>
        waits (kept.mp waiting)⟩
    obtain ⟨-, -, -, quiet⟩ := returned
    exact ⟨registered, fun subscribed =>
      returns.registered registered subscribed (returns.running quiet subscribed)⟩

def firstPacket (packet : Packet) : List SessionEvent :=
  [.environment (.enqueuePacket packet), .reactor .pass, .reactor .pass]

def selectingCall (selections : List StreamIdentifier) : IncomingCall where
  context := 7
  request := .subscribe selections

/-- A complete request is registered, and its constructor returns behind the first packet. -/
theorem incomplete_selections_refused_when_complete :
    RefusesAsAWhole (Server.start {} {}).service (selectingCall [channelIdentifier "HHZ"])
      [channelIdentifier "HHZ"]
      (Session.polled (Server.start {} {}).service (selectingCall [channelIdentifier "HHZ"])
        (firstPacket (channelPacket "HHZ" 0 1))) := by
  refine (incomplete_selections_refused_iff {} (Server.start {} {}).service _
    [channelIdentifier "HHZ"] _ ⟨[], rfl⟩ rfl
      ⟨firstPacket (channelPacket "HHZ" 0 1), ?_, rfl, by decide +kernel⟩).mpr
        ⟨List.cons_ne_nil _ _, ?_, fun _ => ?_⟩
  · exact ⟨⟨rfl, by simp⟩, ⟨by decide +kernel, by simp⟩, ⟨by decide +kernel, by simp⟩, trivial⟩
  · decide
  · simp [SubscriptionManager.registeredNames, Server.start, SubscriptionManager.fresh]

def networklessPacket : Packet :=
  { channelPacket "HHZ" 0 1 with
    streamIdentifierField := some ⟨none, some "CWU", some "HHZ", none⟩ }

/-- A selection without a network is registered under the name it has and served, and a
request without selections is finished with another status behind the one of its argument. -/
theorem incomplete_selection_registered :
    (Session.Constructed (Server.start {} {}).service
        (selectingCall [networklessPacket.streamIdentifier])
        (Session.polled (Server.start {} {}).service
          (selectingCall [networklessPacket.streamIdentifier]) (firstPacket networklessPacket)) ∧
      ¬RefusesAsAWhole (Server.start {} {}).service
        (selectingCall [networklessPacket.streamIdentifier]) [networklessPacket.streamIdentifier]
        (Session.polled (Server.start {} {}).service
          (selectingCall [networklessPacket.streamIdentifier]) (firstPacket networklessPacket))) ∧
    (Session.Constructed (Server.start {} {}).service (selectingCall [])
        (Session.polled (Server.start {} {}).service (selectingCall [])
          [.stopServer, .reactor .pass]) ∧
      ¬RefusesAsAWhole (Server.start {} {}).service (selectingCall []) []
        (Session.polled (Server.start {} {}).service (selectingCall [])
          [.stopServer, .reactor .pass])) := by
  refine ⟨⟨⟨firstPacket networklessPacket, ?_, rfl, by decide +kernel⟩, fun refused => ?_⟩,
    ⟨[.stopServer, .reactor .pass], ?_, rfl, by decide +kernel⟩, fun refused => ?_⟩
  · exact ⟨⟨rfl, by simp⟩, ⟨by decide +kernel, by simp⟩, ⟨by decide +kernel, by simp⟩, trivial⟩
  · -- no call of `Finish` at all
    exact (refused.refuses (by decide)).1.1 (by decide +kernel)
  · exact ⟨⟨rfl, by simp⟩, ⟨by decide +kernel, by simp⟩, trivial⟩
  · exact absurd ((refused.refuses (by decide)).1.2 .failedToSubscribe (by decide +kernel))
      (by decide)

end UDataPacketService
