import UDataPacketService.SubscriberLimit

/-! The server with the callbacks of its reactors cut at every call of the manager, so
that the calls of other reactors and of the producer come between. Run through
without interruption, the sections of a callback are the callback. -/
namespace UDataPacketService

/-- The sections of the constructors and of `OnDone`. Every other callback calls the
manager once at most. -/
inductive CallSection where
  | checkCapacity
  | subscribe (request : Request)
  | countSubscribers
  | startWriting
  | unsubscribe
  | countRemaining
  deriving DecidableEq

namespace Session

def takeSubscription (session : Session) (manager : SubscriptionManager) : Session where
  service := { session.service with mSubscriptionManager := manager }
  reactor := { session.reactor with mSubscribed := true }

/-- The guarded block of a constructor up to the count of the subscribers. -/
def subscribeTo (session : Session) : Request → Session
  | .subscribe selections =>
      let session := if selections = [] then session.finish .noStreamsSpecified else session
      let streamSelections := SubscriptionManager.distinctIdentifiers selections
      let session := if streamSelections = [] then session.finish .noStreamsCreated else session
      match session.service.mSubscriptionManager.subscribe session.reactor.mContextAddress
          streamSelections with
      | .ok manager => session.takeSubscription manager
      | .error _ => session.finish .failedToSubscribe
  | .subscribeToAll =>
      session.takeSubscription (session.service.mSubscriptionManager.subscribeToAll
        session.reactor.mContextAddress)

def countSubscribers (session : Session) : Session :=
  if session.reactor.mSubscribed then
    let counted := session.getNumberOfSubscribers
    let utilization : ℚ := counted.1 / max 1 session.service.mOptions.mMaximumNumberOfSubscribers
    { counted.2 with service := { counted.2.service with
        mMetrics := counted.2.service.mMetrics.updateUtilization utilization } }
  else session

def runSection (session : Session) : CallSection → Session
  | .checkCapacity => session.checkCapacity
  | .subscribe request => session.subscribeTo request
  | .countSubscribers => session.countSubscribers
  | .startWriting => session.nextWrite
  | .unsubscribe => session.unsubscribe
  | .countRemaining =>
      let session := session.getNumberOfSubscribers.2
      { session with reactor := { session.reactor with done := true } }

/-- The reactor of a call before its first call of the manager. -/
def arrive (service : Service) (call : IncomingCall) : Session :=
  authenticate ⟨service, { mContextAddress := call.context, isCancelled := call.isCancelled }⟩ call

end Session

def IncomingCall.sections (call : IncomingCall) : List CallSection :=
  [.checkCapacity, .subscribe call.request, .countSubscribers, .startWriting]

/-- The server, with the sections that each live reactor has still to run before it
takes another event. -/
structure BusyServer where
  server : Server
  sections : ContextAddress → List CallSection := fun _ => []

/-- One call of the manager, or an event without one. -/
inductive CallEvent where
  | connect (call : IncomingCall)
  | proceed (context : ContextAddress)
  | reactor (context : ContextAddress) (event : ReactorEvent)
  | enqueuePacket (packet : Packet)
  | unsubscribeAll
  | stopServer

namespace BusyServer

def connect (busy : BusyServer) (call : IncomingCall) : BusyServer :=
  match busy.server.reactors call.context with
  | some _ => busy
  | none =>
      { server := { busy.server with
          reactors := Function.update busy.server.reactors call.context
            (some (Session.arrive busy.server.service call).reactor) }
        sections := Function.update busy.sections call.context call.sections }

/-- The next section of a reactor; the last one of `OnDone` deletes it. -/
def proceed (busy : BusyServer) (context : ContextAddress) : BusyServer :=
  match busy.server.reactors context, busy.sections context with
  | some reactor, part :: rest =>
      let session := Session.runSection ⟨busy.server.service, reactor⟩ part
      { server := ⟨session.service, Function.update busy.server.reactors context
          (if session.reactor.done then none else some session.reactor)⟩
        sections := Function.update busy.sections context rest }
  | _, _ => busy

/-- A client may cancel at any time; every callback waits for the sections of the last. -/
def react (busy : BusyServer) (context : ContextAddress) (event : ReactorEvent) : BusyServer :=
  match event with
  | .cancel => { busy with server := busy.server.react context .cancel }
  | .onDone =>
      match busy.server.reactors context with
      | none => busy
      | some reactor =>
          if busy.sections context = [] ∧ ReactorEvent.onDone.Deliverable reactor then
            { busy with sections :=
                Function.update busy.sections context [.unsubscribe, .countRemaining] }
          else busy
  | event =>
      if busy.sections context = [] then
        { busy with server := busy.server.react context event }
      else busy

def operate (busy : BusyServer) (operation : Operation) : BusyServer :=
  { busy with server := { busy.server with service := { busy.server.service with
      mSubscriptionManager :=
        (managerMachine.step busy.server.service.mSubscriptionManager operation).1 } } }

def start (options : ServerOptions) (streamOptions : StreamOptions) : BusyServer where
  server := .start options streamOptions

end BusyServer

/-- The server as a machine whose steps make one call of the manager at most. -/
def callMachine : Machine BusyServer CallEvent Unit where
  step busy
    | .connect call => (busy.connect call, ())
    | .proceed context => (busy.proceed context, ())
    | .reactor context event => (busy.react context event, ())
    | .enqueuePacket packet => (busy.operate (.enqueuePacket packet), ())
    | .unsubscribeAll => (busy.operate .unsubscribeAll, ())
    | .stopServer =>
        ({ busy with server := { busy.server with
            service := { busy.server.service with mKeepRunning := false } } }, ())

namespace Session
variable {session : Session}

/-- The guarded block of a constructor is the subscription and the count. -/
theorem countSubscribers_subscribeTo (request : Request)
    (fresh : session.reactor.mSubscribed = false) :
    (session.subscribeTo request).countSubscribers =
      match request with
      | .subscribe selections => session.subscribeToSelections selections
      | .subscribeToAll => session.subscribeToAll := by
  cases request with
  | subscribeToAll => rfl
  | subscribe selections =>
      have skipped {next : Session} (flag : next.reactor.mSubscribed = false) :
          next.countSubscribers = next := by
        rw [countSubscribers, flag]
        rfl
      simp only [subscribeTo, subscribeToSelections]
      generalize checked : (if SubscriptionManager.distinctIdentifiers selections = [] then
        (if selections = [] then session.finish .noStreamsSpecified else session).finish
          .noStreamsCreated
        else if selections = [] then session.finish .noStreamsSpecified else session) = next
      have flag : next.reactor.mSubscribed = false := by
        rw [← checked]
        split <;> split <;> exact fresh
      cases taken : next.service.mSubscriptionManager.subscribe next.reactor.mContextAddress
          (SubscriptionManager.distinctIdentifiers selections) with
      | ok manager => rfl
      | error what => exact skipped flag

theorem arrive_reactor (service : Service) (call : IncomingCall) :
    (arrive service call).service = service ∧
      (arrive service call).reactor.mContextAddress = call.context ∧
      (arrive service call).reactor.mSubscribed = false ∧
      (arrive service call).reactor.done = false := by
  unfold arrive authenticate
  split
  · split
    · split <;> exact ⟨rfl, rfl, rfl, rfl⟩
    · exact ⟨rfl, rfl, rfl, rfl⟩
  · exact ⟨rfl, rfl, rfl, rfl⟩

theorem subscribeTo_done (request : Request) :
    (session.subscribeTo request).reactor.done = session.reactor.done := by
  cases request with
  | subscribeToAll => rfl
  | subscribe selections =>
      simp only [subscribeTo]
      split <;> simp only [takeSubscription, finish] <;> split <;> split <;> rfl

theorem runSection_done {part : CallSection} (other : part ≠ .countRemaining) :
    (session.runSection part).reactor.done = session.reactor.done := by
  cases part with
  | checkCapacity =>
      simp only [runSection, checkCapacity]
      split <;> rfl
  | subscribe request => exact subscribeTo_done request
  | countSubscribers =>
      simp only [runSection, countSubscribers]
      split <;> rfl
  | startWriting => exact nextWritePass_done session.enterLoop
  | unsubscribe => simp only [runSection, unsubscribe_reactor]
  | countRemaining => exact absurd rfl other

/-- The sections of a constructor, one after the other, are the constructor. -/
theorem runSections_construct (service : Service) (call : IncomingCall) :
    call.sections.foldl runSection (arrive service call) = construct service call := by
  have fresh : (arrive service call).checkCapacity.reactor.mSubscribed = false := by
    have := (arrive_reactor service call).2.2.1
    unfold checkCapacity
    simp only
    split <;> exact this
  have block := countSubscribers_subscribeTo call.request fresh
  change ((arrive service call).checkCapacity.subscribeTo call.request).countSubscribers.nextWrite = _
  rw [block]
  rfl

theorem runSections_onDone :
    [CallSection.unsubscribe, .countRemaining].foldl runSection session =
      { session.onDone with reactor := { session.onDone.reactor with done := true } } := rfl

end Session

namespace BusyServer
variable {busy : BusyServer} {c : ContextAddress}

theorem proceed_of_live {reactor : Reactor} {part : CallSection} {rest : List CallSection}
    (there : busy.server.reactors c = some reactor) (next : busy.sections c = part :: rest) :
    busy.proceed c =
      { server := ⟨(Session.runSection ⟨busy.server.service, reactor⟩ part).service,
          Function.update busy.server.reactors c
            (if (Session.runSection ⟨busy.server.service, reactor⟩ part).reactor.done then none
              else some (Session.runSection ⟨busy.server.service, reactor⟩ part).reactor)⟩
        sections := Function.update busy.sections c rest } := by
  simp only [proceed, there, next]

theorem run_proceed {session : Session} {parts : List CallSection} (some_ : parts ≠ [])
    (service : busy.server.service = session.service)
    (there : busy.server.reactors c = some session.reactor) (next : busy.sections c = parts)
    (alive : ∀ before after, parts = before ++ after → after ≠ [] →
      (before.foldl Session.runSection session).reactor.done = false) :
    callMachine.run busy (List.replicate parts.length (.proceed c)) =
      { server := ⟨(parts.foldl Session.runSection session).service,
          Function.update busy.server.reactors c
            (if (parts.foldl Session.runSection session).reactor.done then none
              else some (parts.foldl Session.runSection session).reactor)⟩
        sections := Function.update busy.sections c [] } := by
  induction parts generalizing busy session with
  | nil => exact absurd rfl some_
  | cons part rest ih =>
      have first := proceed_of_live there next
      rw [service] at first
      cases rest with
      | nil => exact first
      | cons second rest =>
          have kept : (session.runSection part).reactor.done = false :=
            alive [part] (second :: rest) rfl (List.cons_ne_nil _ _)
          rw [if_neg (by rw [kept]; exact Bool.false_ne_true)] at first
          have last := @ih (busy.proceed c) (session.runSection part) (List.cons_ne_nil _ _)
            (by rw [first]) (by rw [first]; exact Function.update_self _ _ _)
            (by rw [first]; exact Function.update_self _ _ _)
            (fun before after split more =>
              alive (part :: before) after (congrArg (part :: ·) split) more)
          refine Eq.trans last ?_
          rw [first, Function.update_idem, Function.update_idem]
          rfl

/-- A constructor whose sections run without interruption is the constructor. -/
theorem run_connect {call : IncomingCall} (free : busy.server.reactors call.context = none) :
    callMachine.run busy (.connect call :: List.replicate 4 (.proceed call.context)) =
      { server := busy.server.connect call
        sections := Function.update busy.sections call.context [] } := by
  obtain ⟨service, -, -, live⟩ := Session.arrive_reactor busy.server.service call
  have alive : ∀ before after, call.sections = before ++ after → after ≠ [] →
      (before.foldl Session.runSection (Session.arrive busy.server.service call)).reactor.done =
        false := by
    intro before after split _
    have others : ∀ part ∈ call.sections, part ≠ .countRemaining := by
      simp [IncomingCall.sections]
    rw [FoldFrame.foldl_frame (fun session : Session => session.reactor.done) Session.runSection
      before (fun session part member =>
        Session.runSection_done (others part (split ▸ List.mem_append_left after member))), live]
  have whole : (Session.construct busy.server.service call).reactor.done = false := by
    rw [Session.construct, Session.nextWrite, Session.nextWritePass_done, Session.enterLoop,
      Session.register_reactor]
  have opened : busy.connect call =
      { server := ⟨busy.server.service, Function.update busy.server.reactors call.context
          (some (Session.arrive busy.server.service call).reactor)⟩
        sections := Function.update busy.sections call.context call.sections } := by
    simp only [connect, free]
  have rest := @run_proceed (busy.connect call) call.context
    (Session.arrive busy.server.service call) call.sections (List.cons_ne_nil _ _)
    (by rw [opened, service]) (by rw [opened]; exact Function.update_self _ _ _)
    (by rw [opened]; exact Function.update_self _ _ _) alive
  refine Eq.trans rest ?_
  rw [Session.runSections_construct, opened, Function.update_idem, Function.update_idem, whole,
    Server.connect_of_free free]
  rfl

theorem run_onDone {reactor : Reactor} (there : busy.server.reactors c = some reactor)
    (idle : busy.sections c = []) (live : reactor.done = false)
    (deliverable : ReactorEvent.onDone.Deliverable reactor) :
    callMachine.run busy [.reactor c .onDone, .proceed c, .proceed c] =
      { server := busy.server.react c .onDone
        sections := Function.update busy.sections c [] } := by
  have begun : busy.react c .onDone = { busy with
      sections := Function.update busy.sections c [.unsubscribe, .countRemaining] } := by
    simp only [react, there, idle, deliverable, and_self, if_true]
  have alive : ∀ before after, [CallSection.unsubscribe, .countRemaining] = before ++ after →
      after ≠ [] → (before.foldl Session.runSection ⟨busy.server.service, reactor⟩).reactor.done =
        false := by
    intro before after split more
    have others : ∀ part ∈ before, part ≠ .countRemaining := by
      intro part member last
      subst last
      have short : before.length ≤ 1 := by
        have count := congrArg List.length split
        have := List.length_pos_of_ne_nil more
        simp only [List.length_append, List.length_cons, List.length_nil] at count
        omega
      match before, short with
      | [only], _ =>
          cases split
          cases List.mem_singleton.mp member
    rw [FoldFrame.foldl_frame (fun session : Session => session.reactor.done) Session.runSection
      before (fun session part member => Session.runSection_done (others part member)), live]
  have rest := @run_proceed (busy.react c .onDone) c ⟨busy.server.service, reactor⟩
    [.unsubscribe, .countRemaining] (List.cons_ne_nil _ _) (by rw [begun]) (by rw [begun]; exact there)
    (by rw [begun]; exact Function.update_self _ _ _) alive
  refine Eq.trans rest ?_
  have delivered : Session.react ⟨busy.server.service, reactor⟩ .onDone =
      [CallSection.unsubscribe, .countRemaining].foldl Session.runSection
        ⟨busy.server.service, reactor⟩ := by
    rw [Session.runSections_onDone, Session.react, if_neg]
    rintro (done | blocked)
    · exact Bool.false_ne_true (live.symm.trans done)
    · exact blocked deliverable
  rw [begun, Function.update_idem, Server.react_of_live .onDone there, delivered]

end BusyServer
end UDataPacketService
