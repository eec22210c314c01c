import UDataPacketService.CallConfinement

/-! What a finished RPC leaves behind: nothing. While no reactor of a context knows of
a subscription, the context occurs in no container, and what a later reactor of the
same address receives was enqueued after the earlier one was gone. -/
namespace UDataPacketService
open Std (ExtTreeMap ExtTreeSet)

/-- The sections that are left are the end of a constructor or of `OnDone`. -/
def Scheduled (sections : List CallSection) : Prop :=
  (∃ call : IncomingCall, sections <:+ call.sections) ∨
    sections <:+ [.unsubscribe, .countRemaining]

theorem Scheduled.rest {part : CallSection} {rest : List CallSection}
    (h : Scheduled (part :: rest)) : Scheduled rest :=
  h.imp (fun ⟨call, suffix⟩ => ⟨call, (List.suffix_cons part rest).trans suffix⟩)
    (fun suffix => (List.suffix_cons part rest).trans suffix)

/-- A reactor is deleted by the section behind the one that unsubscribes it. -/
theorem Scheduled.unsubscribes {part : CallSection} {rest : List CallSection}
    (h : Scheduled (part :: .countRemaining :: rest)) : part = .unsubscribe := by
  rcases h with ⟨call, suffix⟩ | suffix
  · have member := suffix.subset (List.mem_cons_of_mem part List.mem_cons_self)
    simp [IncomingCall.sections] at member
  · have length := suffix.length_le
    simp only [List.length_cons, List.length_nil] at length
    have whole := suffix.eq_of_length (by simp only [List.length_cons, List.length_nil]; omega)
    exact (List.cons.inj whole).1

namespace BusyServer

abbrev manager (busy : BusyServer) : SubscriptionManager := busy.server.service.mSubscriptionManager

/-- The records agree, a context with a subscription has a reactor that knows it, and
a reactor about to be deleted has unsubscribed. -/
structure Tidy (busy : BusyServer) : Prop where
  coherent : busy.manager.Coherent
  current : busy.manager.CountCurrent
  live : ∀ c reactor, busy.server.reactors c = some reactor →
    reactor.mContextAddress = c ∧ reactor.done = false
  owned : ∀ c, (busy.manager.view c).Present →
    ∃ reactor, busy.server.reactors c = some reactor ∧ reactor.mSubscribed = true
  scheduled : ∀ c, Scheduled (busy.sections c)
  leaving : ∀ c reactor rest, busy.server.reactors c = some reactor →
    busy.sections c = .countRemaining :: rest → reactor.mSubscribed = false

variable {busy : BusyServer} {c : ContextAddress}

namespace Tidy

theorem owned_reactor (h : busy.Tidy) {reactor : Reactor}
    (there : busy.server.reactors c = some reactor) :
    Session.Owned ⟨busy.server.service, reactor⟩ := by
  refine ⟨h.coherent, h.current, fun present => ?_⟩
  rw [(h.live c reactor there).1] at present
  obtain ⟨own, found, flag⟩ := h.owned c present
  rw [there] at found
  exact (Option.some.inj found) ▸ flag

theorem replace (h : busy.Tidy) {session : Session} {parts : List CallSection}
    (owned : session.Owned) (address : session.reactor.mContextAddress = c)
    (others : ∀ d, d ≠ c → session.service.mSubscriptionManager.view d = busy.manager.view d)
    (left : session.reactor.done = true → session.reactor.mSubscribed = false)
    (scheduled : Scheduled parts)
    (leaving : ∀ rest, parts = .countRemaining :: rest → session.reactor.mSubscribed = false) :
    Tidy { server := ⟨session.service, Function.update busy.server.reactors c
        (if session.reactor.done then none else some session.reactor)⟩
           sections := Function.update busy.sections c parts } where
  coherent := owned.coherent
  current := owned.current
  live := by
    intro d reactor there
    by_cases own : d = c
    · subst own
      change Function.update _ _ _ _ = _ at there
      rw [Function.update_self] at there
      split at there
      · cases there
      · rename_i live
        obtain rfl := Option.some.inj there
        exact ⟨address, Bool.eq_false_iff.mpr live⟩
    · change Function.update _ _ _ _ = _ at there
      rw [Function.update_of_ne own] at there
      exact h.live d reactor there
  owned := by
    intro d present
    change ∃ reactor, Function.update _ _ _ _ = _ ∧ _
    by_cases own : d = c
    · subst own
      have flag := owned.owned (by rw [address]; exact present)
      have live : ¬session.reactor.done = true := fun done =>
        Bool.false_ne_true ((left done).symm.trans flag)
      rw [Function.update_self, if_neg live]
      exact ⟨_, rfl, flag⟩
    · rw [Function.update_of_ne own]
      exact h.owned d (by rw [← others d own]; exact present)
  scheduled := by
    intro d
    change Scheduled (Function.update busy.sections c parts d)
    by_cases own : d = c
    · subst own
      rw [Function.update_self]
      exact scheduled
    · rw [Function.update_of_ne own]
      exact h.scheduled d
  leaving := by
    intro d reactor rest there next
    change Function.update _ _ _ _ = _ at there
    change Function.update _ _ _ _ = _ at next
    by_cases own : d = c
    · subst own
      rw [Function.update_self] at there next
      split at there
      · cases there
      · obtain rfl := Option.some.inj there
        exact leaving rest next
    · rw [Function.update_of_ne own] at there next
      exact h.leaving d reactor rest there next

end Tidy

def Holds (busy : BusyServer) (c : ContextAddress) (packet : Packet) : Prop :=
  (∃ name, packet ∈ queueIn c name busy.manager) ∨
    ∃ reactor, busy.server.reactors c = some reactor ∧
      (packet ∈ reactor.mPacketsQueue ∨ packet ∈ writtenPackets reactor.calls)

/-- A step of the server that keeps it tidy and gives a context no packet but the one
it enqueues. -/
structure Sound (busy : BusyServer) (event : CallEvent) (next : BusyServer) : Prop where
  tidy : next.Tidy
  holds : ∀ d packet, next.Holds d packet → busy.Holds d packet ∨ event = .enqueuePacket packet

namespace Tidy

theorem unchanged (h : busy.Tidy) (event : CallEvent) : busy.Sound event busy :=
  ⟨h, fun _ _ held => .inl held⟩

theorem advance (h : busy.Tidy) (event : CallEvent) {reactor : Reactor} {session : Session}
    {parts : List CallSection} (there : busy.server.reactors c = some reactor)
    (confined : Session.Confined ⟨busy.server.service, reactor⟩ session)
    (left : session.reactor.done = true → session.reactor.mSubscribed = false)
    (scheduled : Scheduled parts)
    (leaving : ∀ rest, parts = .countRemaining :: rest → session.reactor.mSubscribed = false) :
    busy.Sound event { server := ⟨session.service, Function.update busy.server.reactors c
        (if session.reactor.done then none else some session.reactor)⟩
                       sections := Function.update busy.sections c parts } := by
  have address := (h.live c reactor there).1
  have others : ∀ d, d ≠ c →
      session.service.mSubscriptionManager.view d = busy.manager.view d :=
    fun d other => confined.others d (fun same => other (same.trans address))
  have before : ∀ packet, Session.Holds ⟨busy.server.service, reactor⟩ packet →
      busy.Holds c packet := by
    rintro packet (⟨name, queued⟩ | taken)
    · exact .inl ⟨name, address ▸ queued⟩
    · exact .inr ⟨reactor, there, taken⟩
  have own := confined.address.trans address
  refine ⟨h.replace confined.owned own others left scheduled leaving, ?_⟩
  intro d packet held
  refine .inl ?_
  by_cases same : d = c
  · subst same
    refine before packet (confined.holds packet ?_)
    rcases held with ⟨name, queued⟩ | ⟨last, found, taken⟩
    · exact .inl ⟨name, own.symm ▸ queued⟩
    · change Function.update _ _ _ _ = _ at found
      rw [Function.update_self] at found
      split at found
      · cases found
      · obtain rfl := Option.some.inj found
        exact .inr taken
  · rcases held with ⟨name, queued⟩ | ⟨other, found, taken⟩
    · refine .inl ⟨name, ?_⟩
      rw [queueIn_eq_queueAt] at queued ⊢
      rw [← others d same]
      exact queued
    · change Function.update _ _ _ _ = _ at found
      rw [Function.update_of_ne same] at found
      exact .inr ⟨other, found, taken⟩

theorem connect (h : busy.Tidy) (call : IncomingCall) :
    busy.Sound (.connect call) (busy.connect call) := by
  cases free : busy.server.reactors call.context with
  | some reactor =>
      simp only [BusyServer.connect, free]
      exact h.unchanged _
  | none =>
      obtain ⟨service, address, flag, live⟩ := Session.arrive_reactor busy.server.service call
      obtain ⟨queue, written⟩ := Session.arrive_idle busy.server.service call
      have owned : Session.Owned
          ⟨busy.server.service, (Session.arrive busy.server.service call).reactor⟩ := by
        refine ⟨h.coherent, h.current, fun present => ?_⟩
        rw [address] at present
        obtain ⟨reactor, there, -⟩ := h.owned call.context present
        cases free.symm.trans there
      have tidy := h.replace owned address (fun _ _ => rfl) (fun _ => flag)
        (.inl ⟨call, List.suffix_refl (IncomingCall.sections call)⟩) (fun _ next => by cases next)
      rw [if_neg (by rw [live]; exact Bool.false_ne_true)] at tidy
      simp only [BusyServer.connect, free]
      refine ⟨tidy, fun d packet held => .inl ?_⟩
      rcases held with queued | ⟨reactor, there, taken⟩
      · exact .inl queued
      · change Function.update _ _ _ _ = _ at there
        by_cases own : d = call.context
        · rw [own, Function.update_self] at there
          obtain rfl := Option.some.inj there
          rw [queue, written] at taken
          rcases taken with queued | sent
          · cases queued
          · cases sent
        · rw [Function.update_of_ne own] at there
          exact .inr ⟨reactor, there, taken⟩

theorem proceed (h : busy.Tidy) (c : ContextAddress) :
    busy.Sound (.proceed c) (busy.proceed c) := by
  cases there : busy.server.reactors c with
  | none =>
      simp only [BusyServer.proceed, there]
      exact h.unchanged _
  | some reactor =>
      cases next : busy.sections c with
      | nil =>
          simp only [BusyServer.proceed, there, next]
          exact h.unchanged _
      | cons part rest =>
          rw [proceed_of_live there next]
          have owned := h.owned_reactor there
          have schedule := next ▸ h.scheduled c
          refine h.advance _ there (owned.confined_runSection part) ?_ schedule.rest ?_
          · intro done
            by_cases last : part = .countRemaining
            · subst last
              exact h.leaving c reactor rest there next
            · rw [Session.runSection_done last] at done
              exact absurd ((h.live c reactor there).2.symm.trans done) Bool.false_ne_true
          · rintro more rfl
            rw [schedule.unsubscribes, Session.runSection, Session.unsubscribe_reactor]

theorem react_server (h : busy.Tidy) (c : ContextAddress) (event : ReactorEvent)
    (stays : ∀ reactor rest, busy.server.reactors c = some reactor →
      busy.sections c = .countRemaining :: rest →
        (Session.react ⟨busy.server.service, reactor⟩ event).reactor.mSubscribed = false) :
    busy.Sound (.reactor c event) { busy with server := busy.server.react c event } := by
  cases there : busy.server.reactors c with
  | none =>
      simp only [Server.react, there]
      exact h.unchanged _
  | some reactor =>
      have step := h.advance (.reactor c event) there
        ((h.owned_reactor there).confined (Session.moves_react _ event))
        (Session.not_subscribed_of_done (h.live c reactor there).2) (h.scheduled c)
        (fun rest next => stays reactor rest there next)
      rwa [Function.update_eq_self, ← Server.react_of_live event there] at step

theorem react (h : busy.Tidy) (c : ContextAddress) (event : ReactorEvent) :
    busy.Sound (.reactor c event) (busy.react c event) := by
  have callback : ∀ event, busy.sections c = [] →
      busy.Sound (.reactor c event) { busy with server := busy.server.react c event } := by
    intro event idle
    refine h.react_server c event (fun _ _ _ next => ?_)
    cases idle.symm.trans next
  cases event with
  | cancel =>
      refine h.react_server c .cancel (fun reactor rest there next => ?_)
      have flag := h.leaving c reactor rest there next
      unfold Session.react
      split <;> exact flag
  | onDone =>
      cases there : busy.server.reactors c with
      | none =>
          simp only [BusyServer.react, there]
          exact h.unchanged _
      | some reactor =>
          simp only [BusyServer.react, there]
          split
          · have owned := h.owned_reactor there
            have live : ¬reactor.done = true := Bool.eq_false_iff.mp (h.live c reactor there).2
            have stays : Session.Confined ⟨busy.server.service, reactor⟩
                ⟨busy.server.service, reactor⟩ := .of_reactor owned rfl rfl rfl (fun _ taken => taken)
            have step := h.advance (.reactor c .onDone) there stays (fun done => absurd done live)
              (.inr (List.suffix_refl [CallSection.unsubscribe, .countRemaining]))
              (fun _ next => by cases next)
            rwa [if_neg live, ← there, Function.update_eq_self] at step
          · exact h.unchanged _
  | pass | onWriteDone | onCancel =>
      simp only [BusyServer.react]
      split
      · rename_i idle
        exact callback _ idle
      · exact h.unchanged _

theorem operate (h : busy.Tidy) (event : CallEvent) {operation : Operation}
    (quiet : operation.client = none)
    (enqueues : ∀ packet, operation = .enqueuePacket packet → event = .enqueuePacket packet) :
    busy.Sound event (busy.operate operation) := by
  have kept : ∀ c, ((busy.operate operation).manager.view c).Present →
      (busy.manager.view c).Present := by
    intro c present
    exact SubscriptionManager.present_of_step _ c h.coherent (by rw [quiet]; nofun) present
  refine ⟨⟨coherent_step _ _ h.coherent,
    SubscriptionManager.countCurrent_step _ _ h.coherent h.current, h.live,
    fun c present => h.owned c (kept c present), h.scheduled, h.leaving⟩, ?_⟩
  rintro d packet (⟨name, queued⟩ | taken)
  · rw [queueIn_eq_queueAt] at queued
    have seen : (busy.operate operation).manager.view d =
        (busy.manager.view d).step d busy.manager.walk operation :=
      view_managerMachine_step d busy.manager operation
    rw [seen] at queued
    rcases ClientView.mem_queueAt_step (h.coherent d) d _ _ queued with old | new
    · exact .inl (.inl ⟨name, by rw [queueIn_eq_queueAt]; exact old⟩)
    · exact .inr (enqueues packet new)
  · exact .inl (.inr taken)

theorem step (h : busy.Tidy) (event : CallEvent) :
    busy.Sound event (callMachine.step busy event).1 := by
  cases event with
  | connect call => exact h.connect call
  | proceed c => exact h.proceed c
  | reactor c event => exact h.react c event
  | enqueuePacket packet =>
      exact h.operate _ rfl (fun other same => by rw [Operation.enqueuePacket.inj same])
  | unsubscribeAll => exact h.operate _ rfl (fun _ same => by cases same)
  | stopServer => exact ⟨⟨h.coherent, h.current, h.live, h.owned, h.scheduled, h.leaving⟩,
      fun _ _ held => .inl held⟩

end Tidy

theorem start_tidy (options : ServerOptions) (streamOptions : StreamOptions) :
    (start options streamOptions).Tidy where
  coherent := fresh_coherent streamOptions
  current := SubscriptionManager.countCurrent_of_reset _ rfl
  live := nofun
  owned := fun c present =>
    absurd present (SubscriptionManager.not_present_fresh streamOptions c)
  scheduled := fun _ => .inr (List.nil_suffix)
  leaving := nofun

theorem Tidy.run (h : busy.Tidy) (events : List CallEvent) : (callMachine.run busy events).Tidy :=
  callMachine.run_invariant Tidy (fun _ event h => (h.step event).tidy) h events

theorem run_tidy (options : ServerOptions) (streamOptions : StreamOptions)
    (events : List CallEvent) : (callMachine.run (start options streamOptions) events).Tidy :=
  (start_tidy options streamOptions).run events

/-- What a context holds after a run it held before, or the run enqueued it. -/
theorem Tidy.holds_run (h : busy.Tidy) (events : List CallEvent) {packet : Packet}
    (held : (callMachine.run busy events).Holds c packet) :
    busy.Holds c packet ∨ .enqueuePacket packet ∈ events := by
  induction events generalizing busy with
  | nil => exact .inl held
  | cons event events ih =>
      have step := h.step event
      rcases ih step.tidy held with before | later
      · rcases step.holds c packet before with old | new
        · exact .inl old
        · exact .inr (new ▸ List.mem_cons_self)
      · exact .inr (List.mem_cons_of_mem event later)

/-- A reactor with sections left waits for them, whatever the others do. -/
structure Waits (busy : BusyServer) (c : ContextAddress) (parts : List CallSection) : Prop where
  sections : busy.sections c = parts
  live : ∃ reactor, busy.server.reactors c = some reactor

theorem Waits.step {parts : List CallSection} (h : busy.Waits c parts) (tidy : busy.Tidy)
    (left : parts ≠ []) {event : CallEvent} (other : event ≠ .proceed c) :
    (callMachine.step busy event).1.Waits c parts := by
  obtain ⟨waiting, reactor, there⟩ := h
  have busyAt : busy.sections c ≠ [] := by rw [waiting]; exact left
  cases event with
  | connect call =>
      change (busy.connect call).Waits c parts
      cases free : busy.server.reactors call.context with
      | some _ =>
          simp only [connect, free]
          exact ⟨waiting, reactor, there⟩
      | none =>
          have apart : c ≠ call.context := by
            rintro rfl
            cases free.symm.trans there
          simp only [connect, free]
          exact ⟨(Function.update_of_ne apart _ _).trans waiting, reactor,
            (Function.update_of_ne apart _ _).trans there⟩
  | proceed d =>
      have apart : c ≠ d := fun same => other (same ▸ rfl)
      change (busy.proceed d).Waits c parts
      unfold proceed
      split
      · exact ⟨(Function.update_of_ne apart _ _).trans waiting, reactor,
          (Function.update_of_ne apart _ _).trans there⟩
      · exact ⟨waiting, reactor, there⟩
  | reactor d event =>
      change (busy.react d event).Waits c parts
      by_cases apart : c = d
      · subst apart
        cases event with
        | cancel =>
            have live := (tidy.live c reactor there).2
            simp only [react, Server.react_of_live .cancel there]
            refine ⟨waiting, { reactor with isCancelled := true }, ?_⟩
            change Function.update _ _ _ _ = _
            have delivered : Session.react ⟨busy.server.service, reactor⟩ .cancel =
                ⟨busy.server.service, { reactor with isCancelled := true }⟩ := by
              rw [Session.react, if_neg]
              exact not_or.mpr ⟨by rw [live]; exact Bool.false_ne_true, not_not.mpr trivial⟩
            rw [Function.update_self, delivered, if_neg (by rw [live]; exact Bool.false_ne_true)]
        | onDone => simpa only [react, there, busyAt, false_and, if_false] using
            (⟨waiting, reactor, there⟩ : busy.Waits c parts)
        | pass | onWriteDone | onCancel =>
            simp only [react, busyAt, if_false]
            exact ⟨waiting, reactor, there⟩
      · have others : ∀ event, (busy.server.react d event).reactors c = some reactor := by
          intro event
          unfold Server.react
          split
          · exact there
          · exact (Function.update_of_ne apart _ _).trans there
        cases event with
        | cancel => exact ⟨waiting, reactor, others .cancel⟩
        | onDone =>
            simp only [react]
            split
            · exact ⟨waiting, reactor, there⟩
            · split
              · exact ⟨(Function.update_of_ne apart _ _).trans waiting, reactor, there⟩
              · exact ⟨waiting, reactor, there⟩
        | pass | onWriteDone | onCancel =>
            simp only [react]
            split
            · exact ⟨waiting, reactor, others _⟩
            · exact ⟨waiting, reactor, there⟩
  | enqueuePacket packet => exact ⟨waiting, reactor, there⟩
  | unsubscribeAll => exact ⟨waiting, reactor, there⟩
  | stopServer => exact ⟨waiting, reactor, there⟩

theorem Waits.run {parts : List CallSection} (h : busy.Waits c parts) (tidy : busy.Tidy)
    (left : parts ≠ []) {events : List CallEvent} (others : .proceed c ∉ events) :
    (callMachine.run busy events).Waits c parts := by
  induction events generalizing busy with
  | nil => exact h
  | cons event events ih =>
      have apart : event ≠ .proceed c := fun same => others (same ▸ List.mem_cons_self)
      exact ih (h.step tidy left apart) (tidy.step event).tidy
        (fun member => others (List.mem_cons_of_mem event member))

theorem Tidy.not_holds (h : busy.Tidy) (gone : busy.server.reactors c = none) (packet : Packet) :
    ¬busy.Holds c packet := by
  rintro (⟨name, queued⟩ | ⟨reactor, there, -⟩)
  · rw [queueIn_eq_queueAt] at queued
    have served : ((busy.manager.view c).queueAt name).isSome := by
      cases queue : (busy.manager.view c).queueAt name with
      | none => rw [queue] at queued; cases queued
      | some packets => rfl
    have named := (h.coherent c).recorded name served
    have present : (busy.manager.view c).Present := by
      refine .inl ?_
      cases active : (busy.manager.view c).active with
      | none => rw [active] at named; exact absurd named ExtTreeSet.not_mem_empty
      | some names => rfl
    obtain ⟨reactor, there, -⟩ := h.owned c present
    cases gone.symm.trans there
  · cases gone.symm.trans there

theorem Waits.proceed {part : CallSection} {rest : List CallSection}
    (h : busy.Waits c (part :: rest)) (tidy : busy.Tidy) (other : part ≠ .countRemaining) :
    (busy.proceed c).Waits c rest := by
  obtain ⟨waiting, reactor, there⟩ := h
  have live : (Session.runSection ⟨busy.server.service, reactor⟩ part).reactor.done = false := by
    rw [Session.runSection_done other, (tidy.live c reactor there).2]
  rw [proceed_of_live there waiting, if_neg (by rw [live]; exact Bool.false_ne_true)]
  exact ⟨Function.update_self _ _ _, _, Function.update_self _ _ _⟩

theorem Waits.leave {rest : List CallSection} (h : busy.Waits c (.countRemaining :: rest)) :
    (busy.proceed c).server.reactors c = none := by
  obtain ⟨waiting, reactor, there⟩ := h
  rw [proceed_of_live there waiting]
  exact Function.update_self _ _ _

/-- The sections of `OnDone`, whatever comes between them, delete the reactor. -/
theorem Tidy.delete_of_onDone (h : busy.Tidy) {reactor : Reactor}
    (there : busy.server.reactors c = some reactor) (idle : busy.sections c = [])
    (deliverable : ReactorEvent.onDone.Deliverable reactor) {between behind : List CallEvent}
    (first : .proceed c ∉ between) (second : .proceed c ∉ behind) :
    (callMachine.run busy (.reactor c .onDone :: between ++ .proceed c :: behind ++
      [.proceed c])).server.reactors c = none := by
  have begun : (callMachine.step busy (.reactor c .onDone)).1.Waits c
      [.unsubscribe, .countRemaining] := by
    change (busy.react c .onDone).Waits c _
    simp only [BusyServer.react, there, idle, deliverable, and_self, if_true]
    exact ⟨Function.update_self _ _ _, reactor, there⟩
  have tidy := (h.step (.reactor c .onDone)).tidy
  have unsubscribing := begun.run tidy (List.cons_ne_nil _ _) first
  have tidyBetween := tidy.run between
  have counting := (unsubscribing.proceed tidyBetween (by simp)).run
    (tidyBetween.step (.proceed c)).tidy (List.cons_ne_nil _ _) second
  rw [callMachine.run_concat, List.cons_append, callMachine.run_cons, callMachine.run_append,
    callMachine.run_cons]
  exact counting.leave

end BusyServer

/-- In every run of the server, call by call, a context occurs in no container of the
manager while it has no reactor that knows of a subscription; `OnDone` deletes the
reactor, whatever comes between its two calls of the manager; and what the context
holds later was enqueued after the time when it had no reactor. -/
theorem finished_call_leaves_no_trace (options : ServerOptions) (streamOptions : StreamOptions)
    (before after : List CallEvent) (c : ContextAddress) :
    let busy := callMachine.run (BusyServer.start options streamOptions) before
    ((∀ reactor, busy.server.reactors c = some reactor → reactor.mSubscribed = false) →
        busy.manager.Free c) ∧
      (∀ reactor, busy.server.reactors c = some reactor → busy.sections c = [] →
        ReactorEvent.onDone.Deliverable reactor →
          ∀ between behind : List CallEvent, .proceed c ∉ between → .proceed c ∉ behind →
            (callMachine.run busy (.reactor c .onDone :: between ++ .proceed c :: behind ++
              [.proceed c])).server.reactors c = none) ∧
      (busy.server.reactors c = none → ∀ packet,
        (callMachine.run busy after).Holds c packet → .enqueuePacket packet ∈ after) := by
  intro busy
  have tidy : busy.Tidy := BusyServer.run_tidy options streamOptions before
  refine ⟨fun unknown => ?_, fun reactor there idle deliverable between behind first second => ?_,
    fun gone packet held => ?_⟩
  · rw [SubscriptionManager.free_iff_not_present tidy.coherent]
    intro present
    obtain ⟨reactor, there, flag⟩ := tidy.owned c present
    exact Bool.false_ne_true ((unknown reactor there).symm.trans flag)
  · exact tidy.delete_of_onDone there idle deliverable first second
  · exact (tidy.holds_run after held).resolve_left (tidy.not_holds gone packet)

end UDataPacketService
