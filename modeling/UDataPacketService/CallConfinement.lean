import UDataPacketService.CallInterleaving
import UDataPacketService.WriteDiscipline

/-! What one section of a reactor can do: it leaves the views of the other contexts
alone, keeps track of its own subscription, and takes packets from no queue but
its own. -/
namespace UDataPacketService

namespace ClientView
variable {view : ClientView} {name : String} {packet : Packet}

theorem mem_queueAt_subscribe {next : ClientView}
    (streams : next.streams[name]? = view.streams[name]?.map (·.subscribe false)) :
    (next.queueAt name).getD [] = (view.queueAt name).getD [] := by
  rw [queueAt, queueAt, streams]
  cases view.streams[name]? with
  | none => rfl
  | some stream =>
      simp only [Option.map_some, Option.bind_some, StreamView.subscribe, Bool.false_and,
        Bool.false_eq_true, if_false, Option.getD_some]

/-- A call puts no packet into a queue but the one it enqueues. -/
theorem mem_queueAt_step (h : view.Coherent) (c : ContextAddress) (walk : List String)
    (operation : Operation)
    (member : packet ∈ ((view.step c walk operation).queueAt name).getD []) :
    packet ∈ (view.queueAt name).getD [] ∨ operation = .enqueuePacket packet := by
  cases operation with
  | enqueuePacket arrived =>
      simp only [step] at member
      split at member
      · rw [queueAt_enqueue name h] at member
        split at member
        · split at member
          · cases queue : view.queueAt name with
            | none => rw [queue] at member; cases member
            | some old =>
                rw [queue, Option.map_some, Option.getD_some] at member
                exact (BoundedFifo.mem_pushDropping member).imp_right (fun last => by rw [last])
          · split at member
            · exact .inr (by rw [List.mem_singleton.mp member])
            · cases member
        · exact .inl member
      · exact .inl member
  | subscribe d identifiers =>
      refine .inl ?_
      simp only [step] at member
      split at member
      · have streams := view.subscribeToNames_streams name
          (SubscriptionManager.distinctNames identifiers)
          (SubscriptionManager.distinctNames_nodup identifiers)
        split at streams
        · rwa [mem_queueAt_subscribe streams] at member
        · rwa [queueAt, streams] at member
      · exact member
  | subscribeToAll d =>
      refine .inl ?_
      simp only [step] at member
      split at member
      · have streams := view.subscribeToAll_streams name
        split at streams
        · rwa [queueAt, streams] at member
        · rwa [mem_queueAt_subscribe streams] at member
      · exact member
  | getPackets d =>
      refine .inl ?_
      simp only [step] at member
      split at member
      · rw [queueAt_pullAll] at member
        cases queue : view.queueAt name with
        | none => rw [queue] at member; cases member
        | some packets =>
            rw [queue] at member
            exact List.mem_of_mem_drop member
      · exact member
  | unsubscribeFromAll d =>
      refine .inl ?_
      simp only [step] at member
      split at member
      · rw [unsubscribeFromAll, (ignores_dropped name view _).1] at member
        cases member
      · exact member
  | unsubscribeAll =>
      rw [step, unsubscribeAll, (ignores_dropped name view _).1] at member
      cases member
  | getNumberOfSubscribers => exact .inl member

theorem mem_queueAt_of_pullAll (h : view.Coherent) {names : List String}
    (member : packet ∈ (view.pullAll names).1) :
    packet ∈ (view.queueAt packet.toName).getD [] := by
  have own : packet ∈ (view.pullAll names).1.filter (fun other => other.toName = packet.toName) :=
    List.mem_filter.mpr ⟨member, decide_eq_true rfl⟩
  rw [filter_pullAll packet.toName h names] at own
  exact List.mem_of_mem_take own

end ClientView

namespace Session

theorem mem_pushPackets {mMaximumQueueSize : ℕ} {queue batch : List Packet} {packet : Packet}
    (member : packet ∈ pushPackets mMaximumQueueSize queue batch) :
    packet ∈ queue ∨ packet ∈ batch := by
  induction batch generalizing queue with
  | nil => exact .inl member
  | cons first rest ih =>
      rcases ih member with old | later
      · rcases @BoundedFifo.mem_pushDropping _ (mMaximumQueueSize + 1) _ _ _ old with
          earlier | last
        · exact .inl earlier
        · exact .inr (List.mem_cons.mpr (.inl last))
      · exact .inr (List.mem_cons_of_mem first later)

def Holds (session : Session) (packet : Packet) : Prop :=
  (∃ name, packet ∈ queueIn session.reactor.mContextAddress name
    session.service.mSubscriptionManager) ∨
    packet ∈ session.reactor.mPacketsQueue ∨ packet ∈ writtenPackets session.reactor.calls

/-- A step of a reactor that leaves the other clients alone, keeps track of its
subscription and takes packets from its own queues only. -/
structure Confined (session next : Session) : Prop where
  address : next.reactor.mContextAddress = session.reactor.mContextAddress
  others : ∀ d, d ≠ session.reactor.mContextAddress →
    next.service.mSubscriptionManager.view d = session.service.mSubscriptionManager.view d
  owned : next.Owned
  holds : ∀ packet, next.Holds packet → session.Holds packet

namespace Confined

theorem trans {first second third : Session} (h : first.Confined second)
    (h' : second.Confined third) : first.Confined third where
  address := h'.address.trans h.address
  others := fun d other => (h'.others d (h.address ▸ other)).trans (h.others d other)
  owned := h'.owned
  holds := fun packet held => h.holds packet (h'.holds packet held)

theorem of_views {session next : Session} (h : session.Owned)
    (views : ∀ d, next.service.mSubscriptionManager.view d =
      session.service.mSubscriptionManager.view d)
    (current : next.service.mSubscriptionManager.CountCurrent)
    (address : next.reactor.mContextAddress = session.reactor.mContextAddress)
    (flag : next.reactor.mSubscribed = session.reactor.mSubscribed)
    (own : ∀ packet, packet ∈ next.reactor.mPacketsQueue ∨
        packet ∈ writtenPackets next.reactor.calls →
      packet ∈ session.reactor.mPacketsQueue ∨ packet ∈ writtenPackets session.reactor.calls) :
    session.Confined next where
  address := address
  others := fun d _ => views d
  owned := ⟨fun c => by rw [views]; exact h.coherent c, current, by
    rw [views, address, flag]; exact h.owned⟩
  holds := by
    rintro packet (⟨name, queued⟩ | taken)
    · refine .inl ⟨name, ?_⟩
      rw [queueIn_eq_queueAt] at queued ⊢
      rwa [views, address] at queued
    · exact .inr (own packet taken)

theorem of_reactor {session next : Session} (h : session.Owned)
    (manager : next.service.mSubscriptionManager = session.service.mSubscriptionManager)
    (address : next.reactor.mContextAddress = session.reactor.mContextAddress)
    (flag : next.reactor.mSubscribed = session.reactor.mSubscribed)
    (own : ∀ packet, packet ∈ next.reactor.mPacketsQueue ∨
        packet ∈ writtenPackets next.reactor.calls →
      packet ∈ session.reactor.mPacketsQueue ∨ packet ∈ writtenPackets session.reactor.calls) :
    session.Confined next :=
  of_views h (fun d => by rw [manager]) (by rw [manager]; exact h.current) address flag own

theorem of_operation {session next : Session} (operation : Operation) (h : session.Owned)
    (client : operation.client = some session.reactor.mContextAddress)
    (manager : next.service.mSubscriptionManager =
      (managerMachine.step session.service.mSubscriptionManager operation).1)
    (address : next.reactor.mContextAddress = session.reactor.mContextAddress)
    (flag : (next.service.mSubscriptionManager.view session.reactor.mContextAddress).Present →
      next.reactor.mSubscribed = true)
    (own : ∀ packet, packet ∈ next.reactor.mPacketsQueue ∨
      packet ∈ writtenPackets next.reactor.calls → session.Holds packet) :
    session.Confined next where
  address := address
  others := by
    intro d other
    rw [manager, view_managerMachine_step, ClientView.step_of_other _ _ client (Ne.symm other)]
  owned := ⟨by rw [manager]; exact coherent_step _ _ h.coherent,
    by rw [manager]; exact SubscriptionManager.countCurrent_step _ _ h.coherent h.current,
    by rw [address]; exact flag⟩
  holds := by
    rintro packet (⟨name, queued⟩ | taken)
    · refine .inl ⟨name, ?_⟩
      rw [queueIn_eq_queueAt] at queued ⊢
      rw [manager, address, view_managerMachine_step] at queued
      refine (ClientView.mem_queueAt_step (h.coherent _) _ _ _ queued).resolve_right ?_
      rintro rfl
      cases client
    · exact own packet taken

end Confined

namespace Owned
variable {session : Session}

theorem confined_finish (h : session.Owned) (status : Status) :
    session.Confined (session.finish status) :=
  .of_reactor h rfl rfl rfl (fun packet taken => by
    rwa [Session.finish, writtenPackets_finish] at taken)

theorem confined_unsubscribe (h : session.Owned) : session.Confined session.unsubscribe := by
  have gone := h.unsubscribe.owned
  have reactor := session.unsubscribe_reactor
  by_cases flag : session.reactor.mSubscribed = true
  · refine .of_operation (.unsubscribeFromAll session.reactor.mContextAddress) h rfl ?_
      (by rw [reactor]) ?_ (fun packet taken => .inr (by rwa [reactor] at taken))
    · rw [Session.unsubscribe, if_pos flag]
      rfl
    · have own := gone.owned
      rw [reactor] at own ⊢
      exact own
  · have same : session.unsubscribe = session := by
      rw [Session.unsubscribe, if_neg flag]
    rw [same]
    exact .of_reactor h rfl rfl rfl (fun _ taken => taken)

theorem confined_getNumberOfSubscribers (h : session.Owned) :
    session.Confined session.getNumberOfSubscribers.2 :=
  .of_views h (fun d => session.service.mSubscriptionManager.view_getNumberOfSubscribers d)
    (SubscriptionManager.countCurrent_step _ .getNumberOfSubscribers h.coherent h.current) rfl rfl
    (fun _ taken => taken)

theorem confined_fetchPackets (h : session.Owned) : session.Confined session.fetchPackets := by
  refine .of_operation (.getPackets session.reactor.mContextAddress) h rfl rfl rfl
    h.fetchPackets.owned.owned ?_
  rintro packet (queued | written)
  · rcases mem_pushPackets queued with old | pulled
    · exact .inr (.inl old)
    · rw [SubscriptionManager.getPackets_fst] at pulled
      refine .inl ⟨packet.toName, ?_⟩
      rw [queueIn_eq_queueAt]
      exact ClientView.mem_queueAt_of_pullAll (h.coherent _) pulled
  · exact .inr (.inr written)

theorem confined_startWrite (h : session.Owned) {packet : Packet}
    (queued : packet ∈ session.reactor.mPacketsQueue) :
    session.Confined (session.startWrite packet) := by
  refine .of_reactor h rfl rfl rfl ?_
  rintro other (waiting | written)
  · exact .inl waiting
  · simp only [startWrite, writtenPackets_startWrite] at written
    rcases List.mem_append.mp written with old | new
    · exact .inr old
    · exact .inl (by rwa [List.mem_singleton.mp new])

/-- Every callback of a reactor is confined to its context. -/
theorem confined (h : session.Owned) {next : Session} (moves : session.Moves next) :
    session.Confined next := by
  induction moves with
  | refl => exact .of_reactor h rfl rfl rfl (fun _ taken => taken)
  | tail _ move ih =>
      refine ih.trans ?_
      cases move with
      | note address flag queue calls =>
          refine .of_reactor ih.owned rfl address flag (fun packet taken => ?_)
          rw [calls] at taken
          exact taken.imp_left (fun member => queue member)
      | finish status => exact ih.owned.confined_finish status
      | startWrite queued => exact ih.owned.confined_startWrite queued
      | unsubscribe => exact ih.owned.confined_unsubscribe
      | getNumberOfSubscribers => exact ih.owned.confined_getNumberOfSubscribers
      | fetchPackets => exact ih.owned.confined_fetchPackets

theorem confined_checkCapacity (h : session.Owned) : session.Confined session.checkCapacity := by
  unfold Session.checkCapacity
  have counted := h.confined_getNumberOfSubscribers
  simp only
  split
  · exact counted.trans (counted.owned.confined_finish _)
  · exact counted

theorem confined_takeSubscription (operation : Operation) (h : session.Owned)
    (client : operation.client = some session.reactor.mContextAddress) :
    session.Confined (session.takeSubscription
      (managerMachine.step session.service.mSubscriptionManager operation).1) :=
  .of_operation operation h client rfl rfl (fun _ => rfl) (fun _ taken => .inr taken)

theorem confined_subscribeTo (h : session.Owned) (request : Request) :
    session.Confined (session.subscribeTo request) := by
  cases request with
  | subscribeToAll =>
      exact h.confined_takeSubscription (.subscribeToAll session.reactor.mContextAddress) rfl
  | subscribe selections =>
      have finish_if {next : Session} (owned : next.Owned) (status : Status) (P : Prop)
          [Decidable P] : next.Confined (if P then next.finish status else next) := by
        split
        · exact owned.confined_finish status
        · exact .of_reactor owned rfl rfl rfl (fun _ taken => taken)
      have first := finish_if h .noStreamsSpecified (selections = [])
      have second := first.trans (finish_if first.owned .noStreamsCreated
        (SubscriptionManager.distinctIdentifiers selections = []))
      simp only [subscribeTo]
      split
      · rename_i manager taken
        refine second.trans ?_
        have step := second.owned.confined_takeSubscription (.subscribe _
          (SubscriptionManager.distinctIdentifiers selections)) rfl
        simpa only [managerMachine, taken, Reply.settle] using step
      · exact second.trans (second.owned.confined_finish _)

theorem confined_runSection (h : session.Owned) (part : CallSection) :
    session.Confined (session.runSection part) := by
  cases part with
  | checkCapacity => exact h.confined_checkCapacity
  | subscribe request => exact h.confined_subscribeTo request
  | countSubscribers =>
      simp only [runSection, countSubscribers]
      have counted := h.confined_getNumberOfSubscribers
      split
      · exact counted.trans (.of_reactor counted.owned rfl rfl rfl (fun _ taken => taken))
      · exact .of_reactor h rfl rfl rfl (fun _ taken => taken)
  | startWriting => exact h.confined (moves_nextWrite session)
  | unsubscribe => exact h.confined_unsubscribe
  | countRemaining =>
      have counted := h.confined_getNumberOfSubscribers
      exact counted.trans (.of_reactor counted.owned rfl rfl rfl (fun _ taken => taken))

end Owned

theorem arrive_idle (service : Service) (call : IncomingCall) :
    (arrive service call).reactor.mPacketsQueue = [] ∧
      writtenPackets (arrive service call).reactor.calls = [] := by
  unfold arrive authenticate
  split
  · split
    · split <;> exact ⟨rfl, rfl⟩
    · exact ⟨rfl, rfl⟩
  · exact ⟨rfl, rfl⟩

end Session

end UDataPacketService
