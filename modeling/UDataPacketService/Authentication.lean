import UDataPacketService.DeliveryLaw
import UDataPacketService.ReactorProtocol

/-! What a call without the access token gets. The constructor registers the call
as if it had passed the check, so the client is served unless something else keeps
it from being subscribed. -/
namespace UDataPacketService
open Std (ExtTreeMap ExtTreeSet)
open OrderedContainers

/-- The context occurs in no container of the manager and in no stream. -/
structure SubscriptionManager.Free (c : ContextAddress) (manager : SubscriptionManager) : Prop where
  active : c ∉ manager.mActiveSubscriptionsMap
  pending : c ∉ manager.mPendingSubscriptionRequests
  pendingAll : c ∉ manager.mPendingSubscribeToAllRequests
  subscribers : ∀ (key : String) (stream : Stream), manager.mStreamsMap[key]? = some stream →
    c ∉ stream.mSubscribersMap

/-- The call is not served: its constructor leaves the context without subscriptions
and all subscriptions as they were, and no run passes a packet to `StartWrite`. -/
structure NeverServed (service : Service) (call : IncomingCall) : Prop where
  free : (Session.construct service call).service.mSubscriptionManager.Free call.context
  unchanged : (Session.construct service call).service.mSubscriptionManager.SameSubscriptions
    service.mSubscriptionManager
  noWrite : ∀ events packet, .startWrite packet ∉
    (sessionMachine.run (Session.construct service call) events).reactor.calls

namespace SubscriptionManager
variable {manager : SubscriptionManager} {c : ContextAddress}

theorem Free.not_present (free : manager.Free c) : ¬(manager.view c).Present := by
  rintro (active | pending | pendingAll)
  · exact free.active (ExtTreeMap.mem_iff_isSome_getElem?.mpr active)
  · exact free.pending (ExtTreeMap.mem_iff_isSome_getElem?.mpr pending)
  · exact free.pendingAll pendingAll

/-- In a coherent manager a context that is not counted is nowhere. -/
theorem free_iff_not_present (coherent : manager.Coherent) :
    manager.Free c ↔ ¬(manager.view c).Present := by
  constructor
  · exact Free.not_present
  · intro absent
    refine ⟨fun h => absent (.inl (ExtTreeMap.mem_iff_isSome_getElem?.mp h)),
      fun h => absent (.inr (.inl (ExtTreeMap.mem_iff_isSome_getElem?.mp h))),
      fun h => absent (.inr (.inr h)), ?_⟩
    intro key stream hs member
    have served : ((manager.view c).queueAt key).isSome := by
      rw [ClientView.queueAt, view_streams_getElem?, hs]
      exact ExtTreeMap.mem_iff_isSome_getElem?.mp member
    have named := (coherent c).recorded key served
    refine absent (.inl ?_)
    cases ha : (manager.view c).active with
    | none => rw [ha] at named; exact absurd named ExtTreeSet.not_mem_empty
    | some names => rfl

end SubscriptionManager

namespace ClientView
variable {view : ClientView}

theorem Serves.present {name : String} (h : view.Coherent) (served : view.Serves name) :
    view.Present := by
  rcases served with queue | ⟨-, all | member⟩
  · have named := h.recorded name queue
    cases ha : view.active with
    | none => rw [ha] at named; exact absurd named ExtTreeSet.not_mem_empty
    | some names => exact .inl (by rw [ha]; rfl)
  · exact .inr (.inr all)
  · cases hp : view.pending with
    | none => rw [hp] at member; exact absurd member ExtTreeSet.not_mem_empty
    | some names => exact .inr (.inl (by rw [hp]; rfl))

theorem ignores_of_not_present (h : view.Coherent) (absent : ¬view.Present) (name : String) :
    view.Ignores name := by
  refine ⟨?_, ?_⟩
  · cases hq : view.queueAt name with
    | none => rfl
    | some queue => exact absurd (Serves.present h (.inl (by rw [hq]; rfl))) absent
  · rintro (all | member)
    · exact absent (.inr (.inr all))
    · refine absent (.inr (.inl ?_))
      cases hp : view.pending with
      | none => rw [hp] at member; exact absurd member ExtTreeSet.not_mem_empty
      | some names => rfl

/-- Leaving undoes a subscription of a client that was absent. -/
theorem unsubscribeFromAll_undo {next : ClientView} (h : view.Coherent) (coherent : next.Coherent)
    (absent : ¬view.Present) (options : next.mStreamOptions = view.mStreamOptions)
    (streams : ∀ name : String, next.streams[name]?.map StreamView.unsubscribe =
      view.streams[name]?.map StreamView.unsubscribe) :
    next.unsubscribeFromAll = view := by
  have inactive : view.active = none :=
    Option.not_isSome_iff_eq_none.mp (fun active => absent (.inl active))
  have noRequest : view.pending = none :=
    Option.not_isSome_iff_eq_none.mp (fun pending => absent (.inr (.inl pending)))
  ext1
  · exact options
  · apply ExtTreeMap.ext_getElem?
    intro name
    have idle := (ignores_of_not_present h absent name).1
    rw [queueAt] at idle
    rw [unsubscribeFromAll, ExtTreeMap.getElem?_map, streams name]
    cases hs : view.streams[name]? with
    | none => rfl
    | some stream =>
        rw [hs, Option.bind_some] at idle
        rw [Option.map_some, StreamView.unsubscribe, ← idle]
  · rw [inactive]
    exact Option.not_isSome_iff_eq_none.mp
      (fun active => not_present_unsubscribeFromAll coherent (.inl active))
  · rw [noRequest]; rfl
  · exact (Bool.eq_false_iff.mpr (fun all => absent (.inr (.inr all)))).symm

end ClientView
namespace Session
variable (service : Service) (call : IncomingCall)

theorem subscribing_eq_none_iff : subscribing call = none ↔ call.request = .subscribe [] := by
  unfold subscribing
  split <;> simp_all

theorem subscribing_client {operation : Operation} (h : subscribing call = some operation) :
    operation.client = some call.context := by
  unfold subscribing at h
  split at h <;> cases h <;> rfl

theorem subscribing_opens {operation : Operation} (h : subscribing call = some operation) :
    ∃ name, operation.Opens call.context name := by
  unfold subscribing at h
  split at h
  · cases h
  · rename_i selections some _
    obtain rfl := Option.some.inj h
    have selected : selections ≠ [] := fun empty => some (by rw [empty])
    obtain ⟨first, rest, same⟩ := List.exists_cons_of_ne_nil (distinctIdentifiers_ne_nil selected)
    exact ⟨first.toName, rfl, by rw [same]; exact List.mem_cons_self⟩
  · obtain rfl := Option.some.inj h
    exact ⟨"", rfl⟩

theorem subscribing_streams {operation : Operation} (h : subscribing call = some operation)
    (walk : List String) (view : ClientView) (name : String) :
    (view.step call.context walk operation).streams[name]?.map StreamView.unsubscribe =
      view.streams[name]?.map StreamView.unsubscribe := by
  unfold subscribing at h
  split at h
  · cases h
  · obtain rfl := Option.some.inj h
    simp only [ClientView.step, if_true]
    rw [ClientView.subscribeToNames_streams _ _ _ (SubscriptionManager.distinctNames_nodup _)]
    split
    · rw [Option.map_map]
      rfl
    · rfl
  · obtain rfl := Option.some.inj h
    simp only [ClientView.step, if_true]
    rw [ClientView.subscribeToAll_streams]
    split
    · rfl
    · rw [Option.map_map]
      rfl

theorem view_register (d : ContextAddress) :
    (register service call).service.mSubscriptionManager.view d =
      match subscribing call with
      | none => service.mSubscriptionManager.view d
      | some operation => (service.mSubscriptionManager.view d).step d
          service.mSubscriptionManager.getNumberOfSubscribers.2.walk operation := by
  rw [(register_service service call).2.2, registerOperations]
  cases subscribing call with
  | none => exact service.mSubscriptionManager.view_getNumberOfSubscribers d
  | some operation =>
      simp only [Machine.run_cons, Machine.run_nil]
      rw [view_managerMachine_step, ClientView.step, view_managerMachine_step]
      exact congrArg (fun v : ClientView => v.step d _ operation)
        (service.mSubscriptionManager.view_getNumberOfSubscribers d)

variable {service call}

theorem view_register_of_ne {d : ContextAddress} (other : d ≠ call.context) :
    (register service call).service.mSubscriptionManager.view d =
      service.mSubscriptionManager.view d := by
  rw [view_register]
  cases hs : subscribing call with
  | none => rfl
  | some operation =>
      exact ClientView.step_of_other _ _ (subscribing_client call hs) (Ne.symm other)

theorem coherent_register (coherent : service.mSubscriptionManager.Coherent) :
    (register service call).service.mSubscriptionManager.Coherent := by
  rw [(register_service service call).2.2]
  exact managerMachine.run_invariant _ coherent_step coherent _

theorem present_register (coherent : service.mSubscriptionManager.Coherent)
    (absent : ¬(service.mSubscriptionManager.view call.context).Present)
    (selects : call.request ≠ .subscribe []) :
    ((register service call).service.mSubscriptionManager.view call.context).Present := by
  have some := mt (subscribing_eq_none_iff call).mp selects
  obtain ⟨operation, hs⟩ := Option.ne_none_iff_exists'.mp some
  obtain ⟨name, opens⟩ := subscribing_opens call hs
  have before := ClientView.ignores_of_not_present (coherent call.context) absent name
  have after : ((register service call).service.mSubscriptionManager.view call.context).Coherent :=
    coherent_register coherent call.context
  rw [view_register, hs] at after ⊢
  exact ClientView.Serves.present after (before.opened call.context name _ operation opens).1

/-- A client that leaves right after its registration leaves every view as it was. -/
theorem view_register_leave (coherent : service.mSubscriptionManager.Coherent)
    (absent : ¬(service.mSubscriptionManager.view call.context).Present) :
    (register service call).enterLoop.leave.service.mSubscriptionManager.SameSubscriptions
      service.mSubscriptionManager := by
  intro d
  have reactor := register_reactor service call
  simp only [leave, finish, unsubscribe, enterLoop, reactor]
  by_cases selects : call.request = .subscribe []
  · have nothing := (subscribing_eq_none_iff call).mpr selects
    simp only [selects, ne_eq, not_true_eq_false, decide_false, Bool.false_eq_true, if_false]
    rw [view_register, nothing]
  · simp only [ne_eq, selects, not_false_eq_true, decide_true, if_true]
    by_cases own : d = call.context
    · subst own
      rw [SubscriptionManager.view_unsubscribeFromAll]
      refine ClientView.unsubscribeFromAll_undo (coherent _) (coherent_register coherent _) absent
        ?_ (fun name => ?_)
      · rw [view_register]
        split
        · rfl
        · exact ClientView.step_options _ _ _ _
      · rw [view_register]
        split
        · rfl
        · rename_i operation hs
          exact subscribing_streams call hs _ _ name
    · rw [SubscriptionManager.view_unsubscribeFromAll_of_ne _ _ (Ne.symm own),
        view_register_of_ne own]

/-- A call that selects nothing or leaves at once leaves every view as it was. -/
theorem construct_unchanged (coherent : service.mSubscriptionManager.Coherent)
    (absent : ¬(service.mSubscriptionManager.view call.context).Present)
    (quiets : call.request = .subscribe [] ∨ service.mKeepRunning = false ∨
      call.isCancelled = true) :
    (construct service call).service.mSubscriptionManager.SameSubscriptions
      service.mSubscriptionManager := by
  rw [construct_eq]
  split
  · exact view_register_leave coherent absent
  · rename_i stays
    have nothing : call.request = .subscribe [] := by
      refine quiets.resolve_right (fun leaves => stays ?_)
      rcases leaves with stopped | cancelled
      · rw [stopped]; rfl
      · rw [cancelled, Bool.or_true]
    intro d
    have registered : (register service call).service.mSubscriptionManager.view d =
        service.mSubscriptionManager.view d := by
      rw [view_register, (subscribing_eq_none_iff call).mpr nothing]
    simp only [fetchPackets, enterLoop, register_reactor]
    by_cases own : d = call.context
    · subst own
      rw [SubscriptionManager.view_getPackets, registered, ClientView.pullAll_idle]
      exact fun name => (ClientView.ignores_of_not_present (coherent _) absent name).1
    · rw [SubscriptionManager.view_getPackets_of_ne _ _ (Ne.symm own), registered]

/-- Nothing was written, nothing is in flight, and a loop that goes on serves a
client that is nowhere. -/
structure Quiet (session : Session) : Prop where
  coherent : session.service.mSubscriptionManager.Coherent
  noWrite : ∀ packet, .startWrite packet ∉ session.reactor.calls
  outstanding : session.reactor.outstandingWrites = 0
  unsubscribed : session.reactor.mSubscribed = false
  polling : session.reactor.polling = true → session.reactor.mPacketsQueue = [] ∧
    ¬(session.service.mSubscriptionManager.view session.reactor.mContextAddress).Present

theorem Quiet.finish {session : Session} (h : session.Quiet) (status : Status) :
    (session.finish status).Quiet where
  coherent := h.coherent
  noWrite := by
    intro packet member
    rcases List.mem_append.mp member with old | new
    · exact h.noWrite packet old
    · cases List.mem_singleton.mp new
  outstanding := h.outstanding
  unsubscribed := h.unsubscribed
  polling := h.polling

theorem Quiet.unsubscribe {session : Session} (h : session.Quiet) :
    session.unsubscribe = session := by
  rw [Session.unsubscribe, if_neg (by rw [h.unsubscribed]; exact Bool.false_ne_true)]

theorem Quiet.getNumberOfSubscribers {session : Session} (h : session.Quiet) :
    session.getNumberOfSubscribers.2.Quiet where
  coherent := coherent_step _ .getNumberOfSubscribers h.coherent
  noWrite := h.noWrite
  outstanding := h.outstanding
  unsubscribed := h.unsubscribed
  polling := fun loops => ⟨(h.polling loops).1, by
    rw [show session.getNumberOfSubscribers.2.service.mSubscriptionManager.view _ = _ from
      session.service.mSubscriptionManager.view_getNumberOfSubscribers _]
    exact (h.polling loops).2⟩

theorem Quiet.nextWritePass {session : Session} (h : session.Quiet)
    (loops : session.reactor.polling = true) : session.nextWritePass.Quiet := by
  obtain ⟨empty, absent⟩ := h.polling loops
  have idle := ClientView.pullAll_idle _ (fun name => (ClientView.ignores_of_not_present
    (h.coherent session.reactor.mContextAddress) absent name).1)
    session.service.mSubscriptionManager.walk
  unfold Session.nextWritePass
  split
  · rw [leave, h.unsubscribe]
    have last := h.finish (if session.reactor.isCancelled then ⟨.cancelled, ""⟩ else ⟨.ok, ""⟩)
    exact ⟨last.coherent, last.noWrite, last.outstanding, last.unsubscribed,
      fun polls => absurd polls Bool.false_ne_true⟩
  · rw [empty]
    refine ⟨coherent_step _ (.getPackets session.reactor.mContextAddress) h.coherent, h.noWrite,
      h.outstanding, h.unsubscribed, fun _ => ⟨?_, ?_⟩⟩
    · simp only [fetchPackets, SubscriptionManager.getPackets_fst, idle, empty, pushPackets,
        List.foldl_nil]
    · simp only [fetchPackets, SubscriptionManager.view_getPackets, idle]
      exact absent

theorem Quiet.react {session : Session} (h : session.Quiet) (event : ReactorEvent) :
    (session.react event).Quiet := by
  unfold Session.react
  split
  · exact h
  · rename_i live
    obtain ⟨-, deliverable⟩ := not_or.mp live
    rw [not_not] at deliverable
    cases event with
    | cancel => exact ⟨h.coherent, h.noWrite, h.outstanding, h.unsubscribed, h.polling⟩
    | pass => exact h.nextWritePass deliverable
    | onWriteDone ok =>
        have pending : 0 < session.reactor.outstandingWrites := deliverable.1
        rw [h.outstanding] at pending
        exact absurd pending (lt_irrefl 0)
    | onCancel =>
        have marked : Quiet { session with
            reactor := { session.reactor with cancelDelivered := true } } :=
          ⟨h.coherent, h.noWrite, h.outstanding, h.unsubscribed, h.polling⟩
        simp only [onCancel, marked.unsubscribe]
        exact marked
    | onDone =>
        simp only [onDone, h.unsubscribe]
        have counted := h.getNumberOfSubscribers
        exact ⟨counted.coherent, counted.noWrite, counted.outstanding, counted.unsubscribed,
          counted.polling⟩

theorem Quiet.step {session : Session} (h : session.Quiet) (event : SessionEvent) :
    (sessionMachine.step session event).1.Quiet := by
  cases event with
  | reactor event => exact h.react event
  | stopServer => exact ⟨h.coherent, h.noWrite, h.outstanding, h.unsubscribed, h.polling⟩
  | environment operation =>
      simp only [sessionMachine]
      split
      · exact h
      · rename_i other
        refine ⟨coherent_step _ operation h.coherent, h.noWrite, h.outstanding, h.unsubscribed,
          fun loops => ⟨(h.polling loops).1, fun present => (h.polling loops).2 ?_⟩⟩
        exact SubscriptionManager.present_of_step _ _ h.coherent other present

theorem noWrite_register (packet : Packet) :
    .startWrite packet ∉ (Session.register service call).reactor.calls := by
  rw [Session.register_reactor]
  intro member
  obtain ⟨status, -, other⟩ := List.mem_map.mp member
  cases other

theorem quiet_register_leave (coherent : service.mSubscriptionManager.Coherent) :
    (register service call).enterLoop.leave.Quiet := by
  have reactor := leave_reactor (register service call).enterLoop
  refine ⟨?_, ?_, ?_, ?_, ?_⟩
  · have registered : (register service call).service.mSubscriptionManager.Coherent :=
      coherent_register coherent
    simp only [leave, finish, unsubscribe]
    split
    · exact coherent_step _ (.unsubscribeFromAll _) registered
    · exact registered
  · intro packet member
    rw [reactor] at member
    rcases List.mem_append.mp member with old | new
    · exact noWrite_register packet old
    · cases List.mem_singleton.mp new
  · rw [reactor, enterLoop, register_reactor]
  · rw [reactor]
  · rw [reactor]
    exact fun polls => absurd polls Bool.false_ne_true

theorem quiet_register (coherent : service.mSubscriptionManager.Coherent)
    (absent : ¬(service.mSubscriptionManager.view call.context).Present)
    (nothing : call.request = .subscribe []) : (register service call).enterLoop.Quiet := by
  have reactor := register_reactor service call
  refine ⟨coherent_register coherent, noWrite_register, ?_, ?_, fun _ => ⟨?_, ?_⟩⟩
  · rw [enterLoop, reactor]
  · rw [enterLoop, reactor]
    simp [nothing]
  · rw [enterLoop, reactor]
  · simp only [enterLoop, reactor]
    rw [view_register, (subscribing_eq_none_iff call).mpr nothing]
    exact absent

end Session

/-- A call without the access token is never served exactly when its context was free
and it selects nothing, or leaves the loop before it starts. -/
theorem unauthenticated_never_served_iff (options : StreamOptions) (service : Service)
    (call : IncomingCall)
    (reached : managerMachine.Reachable (.fresh options) service.mSubscriptionManager)
    (_rejected : call.Unauthenticated service.mOptions) :
    NeverServed service call ↔
      service.mSubscriptionManager.Free call.context ∧
        (call.request = .subscribe [] ∨ service.mKeepRunning = false ∨
          call.isCancelled = true) := by
  have coherent := reached.invariant SubscriptionManager.Coherent coherent_step
    (fresh_coherent options)
  rw [SubscriptionManager.free_iff_not_present coherent]
  constructor
  · intro never
    have absent : ¬(service.mSubscriptionManager.view call.context).Present := by
      rw [← never.unchanged call.context]
      exact never.free.not_present
    refine ⟨absent, ?_⟩
    by_contra served
    obtain ⟨selects, runs, stays⟩ := by simpa only [not_or] using served
    -- the client is subscribed, and polling does not change that
    have present := never.free.not_present
    rw [Session.construct_eq, if_neg (by simp [runs, stays])] at present
    refine present ?_
    simp only [Session.fetchPackets, Session.enterLoop, Session.register_reactor,
      SubscriptionManager.view_getPackets]
    exact (ClientView.present_pullAll _).mpr (Session.present_register coherent absent selects)
  · rintro ⟨absent, quiets⟩
    have unchanged := Session.construct_unchanged coherent absent quiets
    have quiet : (Session.construct service call).Quiet := by
      by_cases nothing : call.request = .subscribe []
      · exact (Session.quiet_register coherent absent nothing).nextWritePass rfl
      · rw [Session.construct_eq, if_pos]
        · exact Session.quiet_register_leave coherent
        · rcases quiets.resolve_left nothing with stopped | cancelled
          · rw [stopped]; rfl
          · rw [cancelled, Bool.or_true]
    refine ⟨?_, unchanged, ?_⟩
    · rw [SubscriptionManager.free_iff_not_present quiet.coherent, unchanged]
      exact absent
    · intro events
      exact (sessionMachine.run_invariant Session.Quiet (fun session event h => h.step event)
        quiet events).noWrite

/-- A request without selections and without the token stays outside. -/
theorem unauthenticated_never_served_without_selections :
    NeverServed
        { mOptions := { mGRPCOptions := ⟨some "token", by decide⟩ }
          mSubscriptionManager := .fresh {} }
        { context := 7, request := .subscribe [], isSecureConnection := true } ↔
      (SubscriptionManager.fresh {}).Free 7 ∧
        (Request.subscribe [] = .subscribe [] ∨ true = false ∨ false = true) :=
  unauthenticated_never_served_iff {} _ _ ⟨[], rfl⟩ ⟨rfl, "token", rfl, by simp⟩

/-- A client without the token that asks for all streams is sent a packet. -/
theorem unauthenticated_client_is_served :
    IncomingCall.Unauthenticated
        { context := 7, request := .subscribeToAll, isSecureConnection := true }
        { mGRPCOptions := ⟨some "token", by decide⟩ } ∧
      ¬NeverServed
        { mOptions := { mGRPCOptions := ⟨some "token", by decide⟩ }
          mSubscriptionManager := .fresh {} }
        { context := 7, request := .subscribeToAll, isSecureConnection := true } := by
  refine ⟨⟨rfl, "token", rfl, by simp⟩, fun never => ?_⟩
  have written := never.noWrite [.environment (.enqueuePacket (channelPacket "HHZ" 0 100)),
    .reactor .pass, .reactor .pass] (channelPacket "HHZ" 0 100)
  revert written
  set_option maxRecDepth 8000 in decide

end UDataPacketService
