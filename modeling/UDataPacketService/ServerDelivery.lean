import UDataPacketService.ClientHoldings

/-! From the producer to `StartWrite`, whatever the order in which the calls of the
manager come. A client receives a stream in order, without repetition and from its
connection on, and the packets that it misses are lost in known places. -/
namespace UDataPacketService
open BoundedFifo

def CallEvent.arrivals (name : String) (event : CallEvent) : List Packet :=
  (event.operation.bind (Operation.arrival name)).toList

/-- A batch that overflows the queue of the reactor drops no packet of the stream, and
the reactor does not leave any behind. -/
structure Session.KeepsDrawn (name : String) (session next : Session) (batch : List Packet) :
    Prop where
  overflow : ∀ packet ∈ Session.overflow batch, packet.toName ≠ name
  leaves : session.Leaves next → session.queue name = []

instance (name : String) (session next : Session) (batch : List Packet) :
    Decidable (session.KeepsDrawn name next batch) :=
  decidable_of_iff ((∀ packet ∈ Session.overflow batch, packet.toName ≠ name) ∧
    (session.Leaves next → session.queue name = []))
    ⟨fun h => ⟨h.1, h.2⟩, fun h => ⟨h.overflow, h.leaves⟩⟩

namespace BusyServer

/-- What the live reactor of a context holds of a stream, the oldest packet first. -/
def heldBy (c : ContextAddress) (name : String) (busy : BusyServer) : List Packet :=
  match busy.server.reactors c with
  | none => []
  | some reactor => Session.held ⟨busy.server.service, reactor⟩ name

/-- The event loses no packet of the stream for a live reactor of the context: the
stream serves it and has room for what arrives, and no call empties its queue but its
own, after a batch that fits. -/
def Keeps (c : ContextAddress) (name : String) (busy : BusyServer) (event : CallEvent) : Prop :=
  ∀ reactor, busy.server.reactors c = some reactor →
    match event with
    | .enqueuePacket packet => packet.Accepted → packet.toName = name →
        (busy.manager.view c).Serves name ∧
          (queueIn c name busy.manager).length < busy.manager.mStreamOptions.mMaximumQueueSize
    | .unsubscribeAll => queueIn c name busy.manager = []
    | .proceed d => d = c → ∀ part rest, busy.sections c = part :: rest →
        let session : Session := ⟨busy.server.service, reactor⟩
        session.KeepsDrawn name (session.runSection part) (session.sectionBatch part)
    | .reactor d event => d = c → event ≠ .onDone → event = .cancel ∨ busy.sections c = [] →
        let session : Session := ⟨busy.server.service, reactor⟩
        session.KeepsDrawn name (session.react event) (session.batch event)
    | .connect _ | .stopServer => True

instance (c : ContextAddress) (name : String) (busy : BusyServer) :
    DecidablePred (Keeps c name busy)
  | .enqueuePacket packet => inferInstanceAs (Decidable (∀ reactor ∈ busy.server.reactors c,
      packet.Accepted → packet.toName = name → (busy.manager.view c).Serves name ∧
        (queueIn c name busy.manager).length < busy.manager.mStreamOptions.mMaximumQueueSize))
  | .unsubscribeAll => inferInstanceAs (Decidable (∀ reactor ∈ busy.server.reactors c,
      queueIn c name busy.manager = []))
  | .proceed d => decidable_of_iff (∀ reactor ∈ busy.server.reactors c,
      d = c → ∀ part ∈ (busy.sections c).head?,
        Session.KeepsDrawn name ⟨busy.server.service, reactor⟩
          (Session.runSection ⟨busy.server.service, reactor⟩ part)
          (Session.sectionBatch ⟨busy.server.service, reactor⟩ part)) (by
      simp only [Option.mem_def, List.head?_eq_some_iff, forall_exists_index, Keeps])
  | .reactor d event => inferInstanceAs (Decidable (∀ reactor ∈ busy.server.reactors c,
      d = c → event ≠ .onDone → event = .cancel ∨ busy.sections c = [] →
        Session.KeepsDrawn name ⟨busy.server.service, reactor⟩
          (Session.react ⟨busy.server.service, reactor⟩ event)
          (Session.batch ⟨busy.server.service, reactor⟩ event)))
  | .connect _ | .stopServer => .isTrue (fun _ _ => trivial)

variable {busy : BusyServer} {c : ContextAddress} {reactor : Reactor} (name : String)

theorem heldBy_of_live (there : busy.server.reactors c = some reactor) :
    heldBy c name busy = Session.held ⟨busy.server.service, reactor⟩ name := by
  simp only [heldBy, there]

theorem heldBy_of_none (gone : busy.server.reactors c = none) : heldBy c name busy = [] := by
  simp only [heldBy, gone]

theorem heldBy_of_view {next : BusyServer} (address : reactor.mContextAddress = c)
    (there : busy.server.reactors c = some reactor) (left : next.server.reactors c = some reactor)
    (view : next.manager.view c = busy.manager.view c) :
    heldBy c name next = heldBy c name busy := by
  subst address
  rw [heldBy_of_live name there, heldBy_of_live name left, Session.held, Session.held]
  exact congrArg (_ ++ ·) (queueIn_congr _ name view)

theorem heldBy_operate (h : busy.Tidy) (there : busy.server.reactors c = some reactor)
    (operation : Operation) : heldBy c name (busy.operate operation) =
      reactor.taken.filter (fun packet => packet.toName = name) ++
        queueIn c name (managerMachine.step busy.manager operation).1 := by
  have after : (busy.operate operation).server.reactors c = some reactor := there
  rw [heldBy_of_live name after, Session.held, Session.queue, (h.live c reactor there).1]
  rfl

theorem heldBy_arrive (h : busy.Tidy) (gone : busy.server.reactors c = none) {event : CallEvent}
    (there : (callMachine.step busy event).1.server.reactors c = some reactor) :
    heldBy c name (callMachine.step busy event).1 = [] := by
  obtain ⟨call, rfl, own, rfl, -⟩ := connected_of_none gone there
  obtain ⟨service, address, -, -⟩ := Session.arrive_reactor busy.server.service call
  obtain ⟨queue, written⟩ := Session.arrive_idle busy.server.service call
  rw [heldBy_of_live name there, Session.held, Session.queue, Reactor.taken, Reactor.waiting, queue,
    written, address, own]
  have manager : (callMachine.step busy (.connect call)).1.manager = busy.manager := by
    change (busy.connect call).manager = _
    unfold BusyServer.connect
    split <;> rfl
  change (List.filter _ _ ++ queueIn c name (callMachine.step busy (.connect call)).1.manager) = []
  rw [manager, queueIn_eq_queueAt]
  have absent : ¬(busy.manager.view c).Present := by
    intro present
    obtain ⟨reactor, there, -⟩ := h.owned c present
    cases gone.symm.trans there
  rw [(ClientView.ignores_of_not_present (h.coherent c) absent name).1]
  split <;> rfl

theorem heldBy_of_own {next : BusyServer} {session : Session}
    (service : next.server.service = session.service)
    (left : next.server.reactors c = some session.reactor) :
    heldBy c name next = session.held name := by
  rw [heldBy_of_live name left, service]

/-- What is left of a live reactor by a section or a callback of its own. -/
theorem heldBy_of_draws {next : BusyServer} {session : Session} {batch : List Packet}
    (there : busy.server.reactors c = some reactor)
    (drawn : Session.Draws ⟨busy.server.service, reactor⟩ session batch)
    (service : next.server.service = session.service)
    (left : next.server.reactors c = some session.reactor) :
    (heldBy c name next).Sublist (heldBy c name busy) ∧
      (heldBy c name next = heldBy c name busy ↔
        Session.KeepsDrawn name ⟨busy.server.service, reactor⟩ session batch) := by
  rw [heldBy_of_live name there, heldBy_of_own name service left, drawn.held_eq_iff]
  exact ⟨drawn.held_sublist name, fun ⟨fits, stays⟩ => ⟨fits, stays⟩,
    fun kept => ⟨kept.overflow, kept.leaves⟩⟩

theorem Regular.heldBy_proceed (h : busy.Regular) (there : busy.server.reactors c = some reactor)
    {part : CallSection} {rest : List CallSection} (sections : busy.sections c = part :: rest)
    (left : (busy.proceed c).server.reactors c ≠ none) :
    (heldBy c name (busy.proceed c)).Sublist (heldBy c name busy) ∧
      (heldBy c name (busy.proceed c) = heldBy c name busy ↔
        Session.KeepsDrawn name ⟨busy.server.service, reactor⟩
          (Session.runSection ⟨busy.server.service, reactor⟩ part)
          (Session.sectionBatch ⟨busy.server.service, reactor⟩ part)) := by
  have steady := h.steady c reactor there
  rw [sections] at steady
  have drawn : Session.Draws ⟨busy.server.service, reactor⟩
      (Session.runSection ⟨busy.server.service, reactor⟩ part)
      (Session.sectionBatch ⟨busy.server.service, reactor⟩ part) :=
    Session.draws_runSection h.tidy.coherent steady
  rw [proceed_of_live there sections] at left ⊢
  refine heldBy_of_draws name there drawn rfl ?_
  change Function.update _ _ _ _ ≠ _ at left
  change Function.update _ _ _ _ = _
  rw [Function.update_self] at left ⊢
  exact if_neg (fun done => left (if_pos done))

theorem Regular.heldBy_react (h : busy.Regular) (there : busy.server.reactors c = some reactor)
    {event : ReactorEvent} (left : (busy.server.react c event).reactors c ≠ none) :
    (heldBy c name { busy with server := busy.server.react c event }).Sublist
        (heldBy c name busy) ∧
      (heldBy c name { busy with server := busy.server.react c event } = heldBy c name busy ↔
        Session.KeepsDrawn name ⟨busy.server.service, reactor⟩
          (Session.react ⟨busy.server.service, reactor⟩ event)
          (Session.batch ⟨busy.server.service, reactor⟩ event)) := by
  have drawn : Session.Draws ⟨busy.server.service, reactor⟩
      (Session.react ⟨busy.server.service, reactor⟩ event)
      (Session.batch ⟨busy.server.service, reactor⟩ event) :=
    Session.draws_react h.tidy.coherent (h.steady c reactor there).disciplined event
  rw [Server.react_of_live event there] at left ⊢
  refine heldBy_of_draws name there drawn rfl ?_
  change Function.update _ _ _ _ ≠ _ at left
  change Function.update _ _ _ _ = _
  rw [Function.update_self] at left ⊢
  exact if_neg (fun done => left (if_pos done))

theorem Regular.heldBy_enqueuePacket (h : busy.Regular)
    (there : busy.server.reactors c = some reactor) (packet : Packet) :
    (heldBy c name (busy.operate (.enqueuePacket packet))).Sublist
        (heldBy c name busy ++ CallEvent.arrivals name (.enqueuePacket packet)) ∧
      (heldBy c name (busy.operate (.enqueuePacket packet)) =
          heldBy c name busy ++ CallEvent.arrivals name (.enqueuePacket packet) ↔
        Keeps c name busy (.enqueuePacket packet)) := by
  have before := heldBy_of_live name there
  rw [Session.held, Session.queue, (h.tidy.live c reactor there).1] at before
  rw [heldBy_operate name h.tidy there, before, List.append_assoc]
  have keeps : Keeps c name busy (.enqueuePacket packet) ↔
      (packet.Accepted → packet.toName = name → (busy.manager.view c).Serves name ∧
        (queueIn c name busy.manager).length < busy.manager.mStreamOptions.mMaximumQueueSize) :=
    ⟨fun keeps => keeps reactor there, fun keeps _ _ => keeps⟩
  rw [keeps, List.append_cancel_left_eq, queueIn_enqueuePacket c name h.tidy.coherent]
  have sublist {queue : List Packet} {more : List Packet}
      (less : queue.Sublist (queueIn c name busy.manager ++ more)) :
      (reactor.taken.filter (fun packet => packet.toName = name) ++ queue).Sublist
        (reactor.taken.filter (fun packet => packet.toName = name) ++
          (queueIn c name busy.manager ++ more)) :=
    less.append_left _
  by_cases arrives : packet.Accepted ∧ packet.toName = name
  · have arrived : CallEvent.arrivals name (.enqueuePacket packet) = [packet] := by
      simp [CallEvent.arrivals, CallEvent.operation, Operation.arrival, arrives]
    rw [arrived]
    by_cases serves : (busy.manager.view c).Serves name
    · rw [if_pos ⟨arrives.1, arrives.2, serves⟩]
      refine ⟨sublist (pushDropping_sublist _ _ _), ?_⟩
      rw [pushDropping_eq_append_iff busy.manager.mStreamOptions.positive]
      exact ⟨fun room _ _ => ⟨serves, room⟩, fun kept => (kept arrives.1 arrives.2).2⟩
    · rw [if_neg (fun all => serves all.2.2)]
      refine ⟨sublist (List.sublist_append_left _ _), ?_⟩
      rw [List.self_eq_append_right]
      exact ⟨fun none => absurd none (List.cons_ne_nil _ _),
        fun kept => absurd (kept arrives.1 arrives.2).1 serves⟩
  · have quiet : CallEvent.arrivals name (.enqueuePacket packet) = [] := by
      simp [CallEvent.arrivals, CallEvent.operation, Operation.arrival, arrives]
    rw [quiet, if_neg (fun all => arrives ⟨all.1, all.2.1⟩), List.append_nil]
    exact ⟨List.Sublist.refl _, fun _ accepted here => absurd ⟨accepted, here⟩ arrives, fun _ => rfl⟩

/-- `unsubscribeAll` empties the queue of the context, but not that of its reactor. -/
theorem Regular.heldBy_unsubscribeAll (h : busy.Regular)
    (there : busy.server.reactors c = some reactor) :
    (heldBy c name (busy.operate .unsubscribeAll)).Sublist (heldBy c name busy) ∧
      (heldBy c name (busy.operate .unsubscribeAll) = heldBy c name busy ↔
        Keeps c name busy .unsubscribeAll) := by
  have before := heldBy_of_live name there
  rw [Session.held, Session.queue, (h.tidy.live c reactor there).1] at before
  rw [heldBy_operate name h.tidy there, before, queueIn_unsubscribeAll, List.append_nil]
  refine ⟨List.sublist_append_left _ _, ?_⟩
  rw [List.self_eq_append_right]
  exact ⟨fun empty _ _ => empty, fun keeps => keeps reactor there⟩

theorem StepAt.heldBy_of_apart {event : CallEvent} {next : BusyServer}
    (step : busy.StepAt c reactor event next) (h : busy.Tidy)
    (there : busy.server.reactors c = some reactor) (quiet : event.operation = none)
    (apart : event = .proceed c → busy.sections c = [])
    (refused : ∀ callback, event = .reactor c callback → callback ≠ .onDone →
      ¬(callback = .cancel ∨ busy.sections c = [])) :
    heldBy c name next = heldBy c name busy := by
  have address := (h.live c reactor there).1
  cases step with
  | stays left sections view => exact heldBy_of_view name address there left view
  | arrives | purges => cases quiet
  | stops => exact heldBy_of_view name address there there rfl
  | proceeds part rest sections => cases (apart rfl).symm.trans sections
  | reacts callback deliverable other idle =>
      refine absurd ?_ (refused callback rfl other)
      by_cases cancels : callback = .cancel
      · exact .inl cancels
      · exact .inr (idle cancels)
  | ends => exact heldBy_of_view name address there there rfl

/-- A step at which the reactor of a context is not deleted takes nothing from what it
holds but what `Keeps` rules out. -/
theorem Regular.heldBy_step (h : busy.Regular) (there : busy.server.reactors c = some reactor)
    (event : CallEvent) (left : (callMachine.step busy event).1.server.reactors c ≠ none) :
    (heldBy c name (callMachine.step busy event).1).Sublist
        (heldBy c name busy ++ event.arrivals name) ∧
      (heldBy c name (callMachine.step busy event).1 = heldBy c name busy ++ event.arrivals name ↔
        Keeps c name busy event) := by
  have step := h.tidy.stepAt there (h.steady c reactor there) event
  have same {next : BusyServer} (quiet : event.arrivals name = [])
      (kept : heldBy c name next = heldBy c name busy) (keeps : Keeps c name busy event) :
      (heldBy c name next).Sublist (heldBy c name busy ++ event.arrivals name) ∧
        (heldBy c name next = heldBy c name busy ++ event.arrivals name ↔
          Keeps c name busy event) := by
    rw [quiet, List.append_nil, kept]
    exact ⟨List.Sublist.refl _, fun _ => keeps, fun _ => rfl⟩
  have own {next : BusyServer} {K : Prop} (quiet : event.arrivals name = [])
      (drawn : (heldBy c name next).Sublist (heldBy c name busy) ∧
        (heldBy c name next = heldBy c name busy ↔ K)) (keeps : K ↔ Keeps c name busy event) :
      (heldBy c name next).Sublist (heldBy c name busy ++ event.arrivals name) ∧
        (heldBy c name next = heldBy c name busy ++ event.arrivals name ↔
          Keeps c name busy event) := by
    rw [quiet, List.append_nil, ← keeps]
    exact drawn
  cases event with
  | enqueuePacket packet => exact h.heldBy_enqueuePacket name there packet
  | unsubscribeAll =>
      exact own (K := Keeps c name busy .unsubscribeAll) rfl (h.heldBy_unsubscribeAll name there)
        Iff.rfl
  | stopServer =>
      exact same rfl (step.heldBy_of_apart name h.tidy there rfl (by simp) (by simp))
        (fun _ _ => trivial)
  | connect call =>
      exact same rfl (step.heldBy_of_apart name h.tidy there rfl (by simp) (by simp))
        (fun _ _ => trivial)
  | proceed d =>
      by_cases mine : d = c
      · subst mine
        cases sections : busy.sections d with
        | nil =>
            refine same rfl (step.heldBy_of_apart name h.tidy there rfl (fun _ => sections) (by simp)) ?_
            intro _ _ _ part rest more
            cases sections.symm.trans more
        | cons part rest =>
            refine own rfl (h.heldBy_proceed name there sections left) ?_
            constructor
            · intro keeps last found _ first others some_
              obtain rfl := Option.some.inj (there.symm.trans found)
              obtain ⟨rfl, rfl⟩ := List.cons.inj (sections.symm.trans some_)
              exact keeps
            · exact fun keeps => keeps reactor there rfl part rest sections
      · refine same rfl (step.heldBy_of_apart name h.tidy there rfl
          (fun here => absurd (CallEvent.proceed.inj here) mine) (by simp)) ?_
        exact fun _ _ here => absurd here mine
  | reactor d callback =>
      by_cases taken : d = c ∧ callback ≠ .onDone ∧ (callback = .cancel ∨ busy.sections c = [])
      · obtain ⟨rfl, other, idle⟩ := taken
        have whole : busy.react d callback = { busy with server := busy.server.react d callback } := by
          cases callback with
          | cancel => rfl
          | onDone => exact absurd rfl other
          | pass | onWriteDone | onCancel =>
              have empty := idle.resolve_left (by simp)
              simp only [BusyServer.react, empty, if_true]
        change (busy.react d callback).server.reactors d ≠ none at left
        change (heldBy d name (busy.react d callback)).Sublist _ ∧
          (heldBy d name (busy.react d callback) = _ ↔ _)
        rw [whole] at left ⊢
        refine own rfl (h.heldBy_react name there left) ?_
        constructor
        · intro keeps last found _ _ _
          obtain rfl := Option.some.inj (there.symm.trans found)
          exact keeps
        · exact fun keeps => keeps reactor there rfl other idle
      · have refused : d = c → callback ≠ .onDone → ¬(callback = .cancel ∨ busy.sections c = []) :=
          fun here other idle => taken ⟨here, other, idle⟩
        refine same rfl (step.heldBy_of_apart name h.tidy there rfl (by simp) ?_) ?_
        · intro other here
          obtain ⟨rfl, rfl⟩ := CallEvent.reactor.inj here
          exact refused rfl
        · exact fun _ _ here other idle => absurd idle (refused here other)

/-- In any run of the server, a reactor holds a part of what its predecessor at the
address held, if it is the same, and of what arrives. -/
theorem carries (c : ContextAddress) :
    LossyRuns.Carries callMachine Regular (fun _ _ => True) (heldBy c name)
      (CallEvent.arrivals name) where
  keep := fun _ event h _ => h.step event
  step := by
    intro busy event h _
    cases left : (callMachine.step busy event).1.server.reactors c with
    | none =>
        rw [heldBy_of_none name left]
        exact List.nil_sublist _
    | some after =>
        cases there : busy.server.reactors c with
        | none =>
            rw [heldBy_arrive name h.tidy there left]
            exact List.nil_sublist _
        | some reactor =>
            exact (h.heldBy_step name there event (by rw [left]; exact Option.some_ne_none _)).1

abbrev Survives (c : ContextAddress) (busy : BusyServer) (event : CallEvent) : Prop :=
  (callMachine.step busy event).1.server.reactors c ≠ none

theorem carries_live (c : ContextAddress) :
    LossyRuns.Carries callMachine (fun busy => busy.Regular ∧ busy.server.reactors c ≠ none)
      (Survives c) (heldBy c name) (CallEvent.arrivals name) where
  keep := fun _ event h left => ⟨h.1.step event, left⟩
  step := fun busy event h _ => (carries name c).step busy event h.1 trivial

end BusyServer

/-- In every run of the server, call by call, what the reactor of a context has passed to
`StartWrite`, what waits in its queue and what is queued for it at a stream are, in this
order, a sublist of the packets enqueued on the stream since the context had no reactor. -/
theorem client_receives_stream_in_order (options : ServerOptions) (streamOptions : StreamOptions)
    (before after : List CallEvent) (c : ContextAddress) (name : String)
    (gone : (callMachine.run (BusyServer.start options streamOptions) before).server.reactors c =
      none) :
    (BusyServer.heldBy c name
      (callMachine.run (BusyServer.start options streamOptions) (before ++ after))).Sublist
        (after.flatMap (CallEvent.arrivals name)) := by
  have regular := BusyServer.run_regular options streamOptions before
  have always : callMachine.Admissible (fun _ _ => True)
      (callMachine.run (BusyServer.start options streamOptions) before) after :=
    callMachine.admissible_of_forall (fun _ _ _ => trivial) _
  have held := (BusyServer.carries name c).run_sublist regular always
  rwa [BusyServer.heldBy_of_none name gone, List.nil_append, ← callMachine.run_append] at held

/-- A client selects one stream. Two packets of it arrive and one of another stream between
them, and its loop fetches and writes the first and then the second. -/
def twoDeliveries : List CallEvent :=
  [.connect { context := 1, request := .subscribe [channelIdentifier "HHZ"] }, .proceed 1,
    .proceed 1, .proceed 1, .proceed 1, .enqueuePacket (channelPacket "HHZ" 0 1),
    .enqueuePacket (channelPacket "HHN" 0 1), .enqueuePacket (channelPacket "HHZ" 1 1),
    .reactor 1 .pass, .reactor 1 .pass, .reactor 1 (.onWriteDone true), .reactor 1 .pass]

theorem client_receives_stream_in_order_once :
    BusyServer.heldBy 1 (channelIdentifier "HHZ").toName
        (callMachine.run (BusyServer.start {} {}) ([] ++ twoDeliveries)) =
      [channelPacket "HHZ" 0 1, channelPacket "HHZ" 1 1] ∧
    (BusyServer.heldBy 1 (channelIdentifier "HHZ").toName
      (callMachine.run (BusyServer.start {} {}) ([] ++ twoDeliveries))).Sublist
        (twoDeliveries.flatMap (CallEvent.arrivals (channelIdentifier "HHZ").toName)) :=
  ⟨by decide +kernel,
    client_receives_stream_in_order {} {} [] twoDeliveries 1 (channelIdentifier "HHZ").toName rfl⟩

/-- While a reactor lives it misses no packet of a stream exactly if no step loses one:
the stream serves the context and has room for every packet, `unsubscribeAll` finds the
queue empty, no batch overflows with a packet of the stream, and the reactor leaves none
behind. -/
theorem client_misses_what_is_lost (options : ServerOptions) (streamOptions : StreamOptions)
    (before after : List CallEvent) (c : ContextAddress) (name : String)
    (there : (callMachine.run (BusyServer.start options streamOptions) before).server.reactors c ≠
      none)
    (alive : callMachine.Admissible (BusyServer.Survives c)
      (callMachine.run (BusyServer.start options streamOptions) before) after) :
    let busy := callMachine.run (BusyServer.start options streamOptions) before
    BusyServer.heldBy c name (callMachine.run busy after) =
        BusyServer.heldBy c name busy ++ after.flatMap (CallEvent.arrivals name) ↔
      callMachine.Admissible (BusyServer.Keeps c name) busy after := by
  intro busy
  refine (BusyServer.carries_live name c).run_eq_iff ?_
    ⟨BusyServer.run_regular options streamOptions before, there⟩ alive
  rintro now event ⟨regular, live⟩ left
  obtain ⟨reactor, found⟩ := Option.ne_none_iff_exists'.mp live
  exact (regular.heldBy_step name found event left).2

/-- No step of that run loses a packet, so the client has both of them. -/
theorem client_misses_what_is_lost_once :
    BusyServer.heldBy 1 (channelIdentifier "HHZ").toName
        (callMachine.run (callMachine.run (BusyServer.start {} {}) (twoDeliveries.take 1))
          (twoDeliveries.drop 1)) =
      BusyServer.heldBy 1 (channelIdentifier "HHZ").toName
          (callMachine.run (BusyServer.start {} {}) (twoDeliveries.take 1)) ++
        (twoDeliveries.drop 1).flatMap (CallEvent.arrivals (channelIdentifier "HHZ").toName) :=
  (client_misses_what_is_lost {} {} (twoDeliveries.take 1) (twoDeliveries.drop 1) 1
    (channelIdentifier "HHZ").toName (by decide +kernel) (by decide +kernel)).mpr
      (by decide +kernel)

end UDataPacketService
