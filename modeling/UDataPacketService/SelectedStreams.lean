import UDataPacketService.ServerDelivery

/-! A client of `Subscribe` holds packets of the streams that it selected and of no
other stream, whatever the other clients and the producer do meanwhile. -/
namespace UDataPacketService

namespace Session
variable {session next : Session} {c : ContextAddress} {name : String}

theorem ignores_step {manager : SubscriptionManager} (coherent : manager.Coherent)
    (ignored : (manager.view c).Ignores name) (operation : Operation)
    (quiet : ¬operation.Opens c name) :
    ((managerMachine.step manager operation).1.view c).Ignores name := by
  rw [view_managerMachine_step]
  exact ignored.step c name (coherent c) _ operation quiet

theorem ignores_unsubscribe (coherent : session.service.mSubscriptionManager.Coherent)
    (ignored : (session.service.mSubscriptionManager.view c).Ignores name) :
    (session.unsubscribe.service.mSubscriptionManager.view c).Ignores name := by
  unfold Session.unsubscribe
  split
  · exact ignores_step coherent ignored (.unsubscribeFromAll _) (fun opens => opens)
  · exact ignored

theorem ignores_getNumberOfSubscribers
    (ignored : (session.service.mSubscriptionManager.view c).Ignores name) :
    (session.getNumberOfSubscribers.2.service.mSubscriptionManager.view c).Ignores name := by
  have same := session.service.mSubscriptionManager.view_getNumberOfSubscribers c
  change ((SubscriptionManager.getNumberOfSubscribers _).2.view c).Ignores name
  rwa [same]

/-- A stream that a context ignores is ignored behind every callback of any reactor. -/
theorem Owned.ignores (h : session.Owned) (moves : session.Moves next)
    (ignored : (session.service.mSubscriptionManager.view c).Ignores name) :
    (next.service.mSubscriptionManager.view c).Ignores name := by
  induction moves with
  | refl => exact ignored
  | tail moves move ih =>
      have coherent := (h.confined moves).owned.coherent
      cases move with
      | note | finish | startWrite => exact ih
      | unsubscribe => exact ignores_unsubscribe coherent ih
      | getNumberOfSubscribers => exact ignores_getNumberOfSubscribers ih
      | fetchPackets =>
          exact ignores_step coherent ih (.getPackets _) (fun opens => opens)

theorem ignores_subscribeTo (coherent : session.service.mSubscriptionManager.Coherent)
    (ignored : (session.service.mSubscriptionManager.view c).Ignores name)
    {selections : List StreamIdentifier} (other : name ∉ selections.map StreamIdentifier.toName) :
    ((session.subscribeTo (.subscribe selections)).service.mSubscriptionManager.view c).Ignores
      name := by
  have finish_if (next : Session) (status : Status) (P : Prop) [Decidable P] :
      (if P then next.finish status else next).service = next.service := by
    split <;> rfl
  have checked := (finish_if _ .noStreamsCreated
    (SubscriptionManager.distinctIdentifiers selections = [])).trans
      (finish_if session .noStreamsSpecified (selections = []))
  have distinct : name ∉ (SubscriptionManager.distinctIdentifiers selections).map
      StreamIdentifier.toName := fun member =>
    other ((SubscriptionManager.mem_distinctNames selections name).mp member)
  simp only [subscribeTo]
  generalize (if SubscriptionManager.distinctIdentifiers selections = [] then
    (if selections = [] then session.finish .noStreamsSpecified else session).finish
      .noStreamsCreated
    else if selections = [] then session.finish .noStreamsSpecified else session) = next
    at checked ⊢
  rw [← checked] at coherent ignored
  split
  · rename_i manager taken
    have step := ignores_step coherent ignored (.subscribe next.reactor.mContextAddress
      (SubscriptionManager.distinctIdentifiers selections)) (fun opens => distinct opens.2)
    simp only [managerMachine, taken, Reply.settle] at step
    exact step
  · exact ignored

theorem Owned.ignores_runSection (h : session.Owned) {part : CallSection}
    (ignored : (session.service.mSubscriptionManager.view c).Ignores name)
    {selections : List StreamIdentifier} (other : name ∉ selections.map StreamIdentifier.toName)
    (selects : ∀ request, part = .subscribe request → request = .subscribe selections) :
    ((session.runSection part).service.mSubscriptionManager.view c).Ignores name := by
  cases part with
  | checkCapacity =>
      simp only [runSection, checkCapacity]
      split <;> exact ignores_getNumberOfSubscribers ignored
  | subscribe request =>
      obtain rfl := selects request rfl
      exact ignores_subscribeTo h.coherent ignored other
  | countSubscribers =>
      simp only [runSection, countSubscribers]
      split
      · exact ignores_getNumberOfSubscribers ignored
      · exact ignored
  | startWriting => exact h.ignores (moves_nextWrite session) ignored
  | unsubscribe => exact ignores_unsubscribe h.coherent ignored
  | countRemaining => exact ignores_getNumberOfSubscribers ignored

end Session

namespace BusyServer
variable {busy : BusyServer} {c : ContextAddress} {selections : List StreamIdentifier}

/-- The context subscribes to the selected streams at most, and holds packets of them. -/
structure Selected (c : ContextAddress) (selections : List StreamIdentifier) (busy : BusyServer) :
    Prop where
  requests : ∀ request, .subscribe request ∈ busy.sections c → request = .subscribe selections
  ignores : ∀ name, name ∉ selections.map StreamIdentifier.toName →
    (busy.manager.view c).Ignores name
  holds : ∀ packet, busy.Holds c packet → packet.toName ∈ selections.map StreamIdentifier.toName

namespace Selected
variable {reactor : Reactor} {event : CallEvent} {next : BusyServer}

theorem of_stepAt (h : busy.Selected c selections) (tidy : busy.Tidy)
    (there : busy.server.reactors c = some reactor) (step : busy.StepAt c reactor event next) :
    (∀ request, .subscribe request ∈ next.sections c → request = .subscribe selections) ∧
      ∀ name, name ∉ selections.map StreamIdentifier.toName →
        (next.manager.view c).Ignores name := by
  have owned := tidy.owned_reactor there
  cases step with
  | stays _ sections view =>
      rw [sections, view]
      exact ⟨h.requests, h.ignores⟩
  | arrives packet =>
      exact ⟨h.requests, fun name other => Session.ignores_step tidy.coherent
        (h.ignores name other) (.enqueuePacket packet) (fun opens => opens)⟩
  | purges =>
      exact ⟨h.requests, fun name other => Session.ignores_step tidy.coherent
        (h.ignores name other) .unsubscribeAll (fun opens => opens)⟩
  | stops => exact ⟨h.requests, h.ignores⟩
  | proceeds part rest sections =>
      rw [proceed_of_live there sections]
      refine ⟨fun request member => ?_, fun name other => ?_⟩
      · change _ ∈ Function.update busy.sections c rest c at member
        rw [Function.update_self] at member
        exact h.requests request (sections ▸ List.mem_cons_of_mem part member)
      · exact owned.ignores_runSection (h.ignores name other) other
          (fun request first => h.requests request (sections ▸ first ▸ List.mem_cons_self))
  | reacts callback deliverable other idle =>
      rw [Server.react_of_live callback there]
      exact ⟨h.requests, fun name apart =>
        owned.ignores (Session.moves_react _ callback) (h.ignores name apart)⟩
  | ends idle deliverable =>
      refine ⟨fun request member => ?_, h.ignores⟩
      change _ ∈ Function.update busy.sections c _ c at member
      rw [Function.update_self] at member
      simp at member

theorem step (h : busy.Selected c selections) (regular : busy.Regular)
    (there : busy.server.reactors c = some reactor) (event : CallEvent) :
    (callMachine.step busy event).1.Selected c selections := by
  have tidy := regular.tidy
  have sound := tidy.step event
  obtain ⟨requests, ignores⟩ := h.of_stepAt tidy there
    (tidy.stepAt there (regular.steady c reactor there) event)
  refine ⟨requests, ignores, fun packet held => ?_⟩
  by_contra other
  rcases held with ⟨name, queued⟩ | taken
  · -- a stream that is ignored has no queue
    rw [queueIn_eq_queueAt] at queued
    have named := ClientView.name_of_mem_queueAt name (sound.tidy.coherent c) queued
    rw [(ignores name (named ▸ other)).1] at queued
    cases queued
  · rcases sound.holds c packet (.inr taken) with before | rfl
    · exact other (h.holds packet before)
    · exact other (h.holds packet (.inr taken))

end Selected

/-- A reactor of `Subscribe` that is built selects what its request says. -/
theorem Regular.selected_connect (h : busy.Regular) {call : IncomingCall}
    (request : call.request = .subscribe selections)
    (gone : busy.server.reactors call.context = none) :
    (busy.connect call).Selected call.context selections := by
  have sound := h.tidy.step (.connect call)
  have absent : ¬(busy.manager.view call.context).Present := by
    intro present
    obtain ⟨reactor, there, -⟩ := h.tidy.owned call.context present
    cases gone.symm.trans there
  refine ⟨fun other member => ?_, fun name _ => ?_, fun packet held => ?_⟩
  · simp only [connect, gone, Function.update_self, IncomingCall.sections, request] at member
    simpa using member
  · simp only [connect, gone]
    exact ClientView.ignores_of_not_present (h.tidy.coherent _) absent name
  · exfalso
    rcases sound.holds call.context packet held with before | arrives
    · exact h.tidy.not_holds gone packet before
    · cases arrives

end BusyServer

/-- In every run of the server, call by call, a reactor of `Subscribe` holds, queued or
written, packets of the streams that its request selects and of no other. -/
theorem subscriber_confined_to_selection (options : ServerOptions) (streamOptions : StreamOptions)
    (before after : List CallEvent) (call : IncomingCall) (selections : List StreamIdentifier)
    (request : call.request = .subscribe selections)
    (gone : (callMachine.run (BusyServer.start options streamOptions) before).server.reactors
      call.context = none)
    (once : ∀ other, .connect other ∈ after → other.context ≠ call.context) (packet : Packet)
    (held : (callMachine.run (BusyServer.start options streamOptions)
      (before ++ .connect call :: after)).Holds call.context packet) :
    packet.toName ∈ selections.map StreamIdentifier.toName := by
  have regular := BusyServer.run_regular options streamOptions before
  rw [callMachine.run_append, callMachine.run_cons] at held
  have guards : callMachine.Admissible
      (fun _ event => ∀ other, event = .connect other → other.context ≠ call.context)
      (callMachine.step (callMachine.run (BusyServer.start options streamOptions) before)
        (.connect call)).1 after :=
    callMachine.admissible_of_forall
      (fun event member _ other (connects : event = .connect other) => once other (connects ▸ member)) _
  have last := guards.invariant
    (fun busy : BusyServer => busy.Regular ∧ (busy.server.reactors call.context = none ∨
      busy.Selected call.context selections)) ?_
    ⟨regular.step _, .inr (regular.selected_connect request gone)⟩
  · rcases last.2 with left | selected
    · exact absurd held (last.1.tidy.not_holds left packet)
    · exact selected.holds packet held
  · intro busy event state once
    refine ⟨state.1.step event, ?_⟩
    rcases state.2 with left | selected
    · exact .inl (BusyServer.none_step left once)
    · cases there : busy.server.reactors call.context with
      | none => exact .inl (BusyServer.none_step there once)
      | some reactor => exact .inr (selected.step state.1 there event)

/-- A client that selects one stream holds the two packets of it that arrive, and not the
one of another stream. -/
theorem subscriber_confined_to_selection_once :
    (callMachine.run (BusyServer.start {} {}) twoDeliveries).Holds 1 (channelPacket "HHZ" 0 1) ∧
    (channelPacket "HHZ" 0 1).toName ∈ [channelIdentifier "HHZ"].map StreamIdentifier.toName ∧
    (callMachine.run (BusyServer.start {} {}) twoDeliveries).Holds 1 (channelPacket "HHZ" 1 1) ∧
    (channelPacket "HHZ" 1 1).toName ∈ [channelIdentifier "HHZ"].map StreamIdentifier.toName ∧
    ¬(callMachine.run (BusyServer.start {} {}) twoDeliveries).Holds 1
      (channelPacket "HHN" 0 1) := by
  have confined := fun packet =>
    subscriber_confined_to_selection {} {} [] (twoDeliveries.drop 1)
      { context := 1, request := .subscribe [channelIdentifier "HHZ"] } [channelIdentifier "HHZ"]
      rfl rfl (by simp [twoDeliveries]) packet
  have written : ((callMachine.run (BusyServer.start {} {}) twoDeliveries).server.reactors 1).map
      (fun reactor => writtenPackets reactor.calls) =
        some [channelPacket "HHZ" 0 1, channelPacket "HHZ" 1 1] := by decide +kernel
  obtain ⟨reactor, there, calls⟩ := Option.map_eq_some_iff.mp written
  have holds : ∀ packet ∈ [channelPacket "HHZ" 0 1, channelPacket "HHZ" 1 1],
      (callMachine.run (BusyServer.start {} {}) twoDeliveries).Holds 1 packet :=
    fun packet member => .inr ⟨reactor, there, .inr (calls ▸ member)⟩
  have first := holds _ List.mem_cons_self
  have second := holds _ (List.mem_cons_of_mem _ List.mem_cons_self)
  refine ⟨first, confined _ first, second, confined _ second, fun other => ?_⟩
  exact absurd (confined _ other) (by decide +kernel)

end UDataPacketService
