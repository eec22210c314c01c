import UDataPacketService.SteadyReactors
import UDataPacketService.LossyRuns

/-! What a live reactor holds of one stream: the packets it passed to `StartWrite`, those
that wait in its own queue, and those in its queue at the stream. From the moment it
is there nothing comes in but what the producer enqueues, at the end, and a packet
gets lost in four places only. -/
namespace UDataPacketService
open Std (ExtTreeMap ExtTreeSet)
open BoundedFifo

section Queues
variable (c : ContextAddress) (name : String) {manager : SubscriptionManager}

theorem queueIn_congr {other : SubscriptionManager} (same : other.view c = manager.view c) :
    queueIn c name other = queueIn c name manager := by
  rw [queueIn_eq_queueAt, queueIn_eq_queueAt, same]

theorem queueIn_step (operation : Operation) :
    queueIn c name (managerMachine.step manager operation).1 =
      (((manager.view c).step c manager.walk operation).queueAt name).getD [] := by
  rw [queueIn_eq_queueAt, view_managerMachine_step]

theorem queueIn_subscribe (operation : Operation)
    (subscribes : (∃ identifiers, operation = .subscribe c identifiers) ∨
      operation = .subscribeToAll c) :
    queueIn c name (managerMachine.step manager operation).1 = queueIn c name manager := by
  rw [queueIn_step, queueIn_eq_queueAt]
  rcases subscribes with ⟨identifiers, rfl⟩ | rfl
  · simp only [ClientView.step, if_true]
    have streams := (manager.view c).subscribeToNames_streams name
      (SubscriptionManager.distinctNames identifiers)
      (SubscriptionManager.distinctNames_nodup identifiers)
    split at streams
    · exact ClientView.mem_queueAt_subscribe streams
    · rw [ClientView.queueAt, streams]
      rfl
  · simp only [ClientView.step, if_true]
    have streams := (manager.view c).subscribeToAll_streams name
    split at streams
    · rw [ClientView.queueAt, streams]
      rfl
    · exact ClientView.mem_queueAt_subscribe streams

theorem queueIn_unsubscribeFromAll :
    queueIn c name (manager.unsubscribeFromAll c) = [] := by
  rw [queueIn_eq_queueAt, SubscriptionManager.view_unsubscribeFromAll,
    ClientView.unsubscribeFromAll, (ClientView.ignores_dropped name _ _).1]
  rfl

theorem queueIn_unsubscribeAll :
    queueIn c name (managerMachine.step manager .unsubscribeAll).1 = [] := by
  rw [queueIn_step, ClientView.step, ClientView.unsubscribeAll,
    (ClientView.ignores_dropped name _ _).1]
  rfl

theorem queueIn_getPackets (coherent : manager.Coherent) :
    (manager.getPackets c).1.filter (fun packet => packet.toName = name) ++
      queueIn c name (manager.getPackets c).2 = queueIn c name manager := by
  rw [SubscriptionManager.getPackets_fst, ClientView.filter_pullAll name (coherent c),
    queueIn_eq_queueAt, SubscriptionManager.view_getPackets, ClientView.queueAt_pullAll,
    queueIn_eq_queueAt]
  cases (manager.view c).queueAt name with
  | none => simp
  | some queue => simp

/-- A packet reaches the queue of a context that the stream serves, where a full queue
loses its front. -/
theorem queueIn_enqueuePacket (coherent : manager.Coherent) (packet : Packet) :
    queueIn c name (managerMachine.step manager (.enqueuePacket packet)).1 =
      open Classical in
      if packet.Accepted ∧ packet.toName = name ∧ (manager.view c).Serves name then
        pushDropping manager.mStreamOptions.mMaximumQueueSize packet (queueIn c name manager)
      else queueIn c name manager := by
  rw [queueIn_step, queueIn_eq_queueAt, ClientView.step]
  by_cases accepted : packet.Accepted
  · rw [if_pos accepted, ClientView.queueAt_enqueue name (coherent c)]
    by_cases here : packet.toName = name
    · rw [if_pos here]
      by_cases present : name ∈ (manager.view c).streams
      · rw [if_pos present]
        cases queue : (manager.view c).queueAt name with
        | some queue =>
            rw [if_pos ⟨accepted, here, .inl (by rw [queue]; rfl)⟩]
            rfl
        | none =>
            rw [if_neg]
            · rfl
            · rintro ⟨-, -, there | ⟨absent, -⟩⟩
              · rw [queue] at there
                cases there
              · exact absent present
      · rw [if_neg present, ClientView.queueAt_isNone_of_absent name present]
        by_cases waits : (manager.view c).Awaits name
        · rw [if_pos waits, if_pos ⟨accepted, here, .inr ⟨present, waits⟩⟩]
          simp [pushDropping]
        · rw [if_neg waits, if_neg]
          rintro ⟨-, -, there | ⟨-, waiting⟩⟩
          · rw [ClientView.queueAt_isNone_of_absent name present] at there
            cases there
          · exact waits waiting
    · rw [if_neg here, if_neg (fun both => here both.2.1)]
  · rw [if_neg accepted, if_neg (fun both => accepted both.1)]

end Queues

namespace Session

def queue (session : Session) (name : String) : List Packet :=
  queueIn session.reactor.mContextAddress name session.service.mSubscriptionManager

def held (session : Session) (name : String) : List Packet :=
  session.reactor.taken.filter (fun packet => packet.toName = name) ++ session.queue name

def Leaves (session next : Session) : Prop :=
  session.reactor.mSubscribed = true ∧ next.reactor.mSubscribed = false

instance (session next : Session) : Decidable (session.Leaves next) :=
  inferInstanceAs (Decidable (_ ∧ _))

/-- A step of a reactor takes a batch from the front of its queues, or it leaves. -/
structure Draws (session next : Session) (batch : List Packet) : Prop where
  address : next.reactor.mContextAddress = session.reactor.mContextAddress
  taken : next.reactor.taken = session.reactor.taken ++ keptBatch 2048 batch
  kept : ∀ name, ¬session.Leaves next →
    batch.filter (fun packet => packet.toName = name) ++ next.queue name = session.queue name
  left : ∀ name, session.Leaves next → batch = [] ∧ next.queue name = []

def overflow (batch : List Packet) : List Packet := batch.take (batch.length - 2049)

theorem overflow_append_kept (batch : List Packet) : overflow batch ++ keptBatch 2048 batch = batch :=
  List.take_append_drop _ batch

namespace Draws
variable {session next : Session} {batch : List Packet} (name : String)

theorem held_eq (h : session.Draws next batch) (stays : ¬session.Leaves next) :
    session.held name =
      session.reactor.taken.filter (fun packet => packet.toName = name) ++
        ((overflow batch).filter (fun packet => packet.toName = name) ++
          ((keptBatch 2048 batch).filter (fun packet => packet.toName = name) ++
            next.queue name)) := by
  rw [held, ← h.kept name stays, ← List.append_assoc (List.filter _ (overflow batch)),
    ← List.filter_append, overflow_append_kept]

theorem held_next (h : session.Draws next batch) :
    next.held name =
      session.reactor.taken.filter (fun packet => packet.toName = name) ++
        ((keptBatch 2048 batch).filter (fun packet => packet.toName = name) ++
          next.queue name) := by
  rw [held, h.taken, List.filter_append, List.append_assoc]

theorem held_left (h : session.Draws next batch) (leaves : session.Leaves next) :
    next.held name = session.reactor.taken.filter (fun packet => packet.toName = name) := by
  obtain ⟨empty, none⟩ := h.left name leaves
  rw [h.held_next, empty, none]
  exact List.append_nil _

theorem held_sublist (h : session.Draws next batch) :
    (next.held name).Sublist (session.held name) := by
  by_cases leaves : session.Leaves next
  · rw [h.held_left name leaves]
    exact List.sublist_append_left _ _
  · rw [h.held_eq name leaves, h.held_next]
    exact (List.sublist_append_right _ _).append_left _

/-- A reactor loses nothing exactly if the overflow drops no packet of the stream and the
reactor leaves no packet behind. -/
theorem held_eq_iff (h : session.Draws next batch) :
    next.held name = session.held name ↔
      (∀ packet ∈ overflow batch, packet.toName ≠ name) ∧
        (session.Leaves next → session.queue name = []) := by
  by_cases leaves : session.Leaves next
  · obtain ⟨empty, -⟩ := h.left name leaves
    rw [h.held_left name leaves, held, List.self_eq_append_right, empty]
    simp [overflow, leaves]
  · rw [h.held_eq name leaves, h.held_next, List.append_cancel_left_eq, List.self_eq_append_left,
      List.filter_eq_nil_iff]
    simp [leaves]

end Draws

/-- A step that takes no batch, touches no queue of the context and does not leave. -/
structure Still (session next : Session) : Prop where
  address : next.reactor.mContextAddress = session.reactor.mContextAddress
  taken : next.reactor.taken = session.reactor.taken
  flag : next.reactor.mSubscribed = false → session.reactor.mSubscribed = false
  queue : ∀ name, next.queue name = session.queue name

section Steps
variable {session next : Session}

theorem queue_congr (address : next.reactor.mContextAddress = session.reactor.mContextAddress)
    (views : ∀ d, next.service.mSubscriptionManager.view d =
      session.service.mSubscriptionManager.view d) (name : String) :
    next.queue name = session.queue name := by
  rw [queue, address]
  exact queueIn_congr _ name (views _)

namespace Still

theorem refl (session : Session) : session.Still session := ⟨rfl, rfl, id, fun _ => rfl⟩

theorem trans {last : Session} (h : session.Still next) (h' : next.Still last) :
    session.Still last where
  address := h'.address.trans h.address
  taken := h'.taken.trans h.taken
  flag := fun off => h.flag (h'.flag off)
  queue := fun name => (h'.queue name).trans (h.queue name)

theorem of_reactor (address : next.reactor.mContextAddress = session.reactor.mContextAddress)
    (taken : next.reactor.taken = session.reactor.taken)
    (flag : next.reactor.mSubscribed = session.reactor.mSubscribed)
    (manager : next.service.mSubscriptionManager = session.service.mSubscriptionManager) :
    session.Still next :=
  ⟨address, taken, fun off => flag ▸ off,
    queue_congr address (fun d => congrArg (SubscriptionManager.view d) manager)⟩

theorem finish (status : Status) : session.Still (session.finish status) := by
  refine .of_reactor rfl ?_ rfl rfl
  simp only [Reactor.taken, Reactor.waiting, Session.finish, writtenPackets_finish]
  rfl

theorem finish_if (status : Status) (P : Prop) [Decidable P] :
    session.Still (if P then session.finish status else session) := by
  split
  · exact finish status
  · exact refl session

theorem getNumberOfSubscribers : session.Still session.getNumberOfSubscribers.2 :=
  ⟨rfl, rfl, id, queue_congr rfl
    (fun d => session.service.mSubscriptionManager.view_getNumberOfSubscribers d)⟩

theorem takeSubscription (operation : Operation)
    (subscribes : (∃ identifiers, operation = .subscribe session.reactor.mContextAddress identifiers) ∨
      operation = .subscribeToAll session.reactor.mContextAddress) :
    session.Still (session.takeSubscription
      (managerMachine.step session.service.mSubscriptionManager operation).1) :=
  ⟨rfl, rfl, fun off => absurd off (by simp [Session.takeSubscription]),
    fun name => queueIn_subscribe _ name operation subscribes⟩

theorem subscribeTo (request : Request) : session.Still (session.subscribeTo request) := by
  cases request with
  | subscribeToAll =>
      exact takeSubscription (.subscribeToAll session.reactor.mContextAddress) (.inr rfl)
  | subscribe selections =>
      have first : session.Still
          (if selections = [] then session.finish .noStreamsSpecified else session) :=
        finish_if _ _
      have checked := first.trans
        (finish_if .noStreamsCreated (SubscriptionManager.distinctIdentifiers selections = []))
      simp only [Session.subscribeTo]
      generalize (if SubscriptionManager.distinctIdentifiers selections = [] then
        (if selections = [] then session.finish .noStreamsSpecified else session).finish
          .noStreamsCreated
        else if selections = [] then session.finish .noStreamsSpecified else session) = next
        at checked ⊢
      split
      · rename_i manager settled
        have step : next.Still (next.takeSubscription
            (managerMachine.step next.service.mSubscriptionManager (.subscribe
              next.reactor.mContextAddress
              (SubscriptionManager.distinctIdentifiers selections))).1) :=
          takeSubscription _ (.inl ⟨_, rfl⟩)
        simp only [managerMachine, settled, Reply.settle] at step
        exact checked.trans step
      · exact checked.trans (finish _)

theorem draws (h : session.Still next) : session.Draws next [] where
  address := h.address
  taken := h.taken.trans (List.append_nil _).symm
  kept := fun name _ => h.queue name
  left := fun _ leaves => absurd (leaves.1.symm.trans (h.flag leaves.2)) (by simp)

end Still

theorem Draws.of_unsubscribe
    (address : next.reactor.mContextAddress = session.reactor.mContextAddress)
    (taken : next.reactor.taken = session.reactor.taken)
    (flag : next.reactor.mSubscribed = false)
    (views : ∀ d, next.service.mSubscriptionManager.view d =
      session.unsubscribe.service.mSubscriptionManager.view d) : session.Draws next [] where
  address := address
  taken := taken.trans (List.append_nil _).symm
  kept := by
    intro name stays
    have off : ¬session.reactor.mSubscribed = true := fun on => stays ⟨on, flag⟩
    rw [Session.unsubscribe, if_neg off] at views
    exact queue_congr address views name
  left := by
    intro name leaves
    refine ⟨rfl, ?_⟩
    rw [queue, queueIn_congr _ name (views _), address, Session.unsubscribe, if_pos leaves.1]
    exact queueIn_unsubscribeFromAll _ name

/-- What a pass of an idle loop does to the queues: it leaves, or it takes its batch
from their front. -/
theorem queue_nextWritePass (session : Session)
    (coherent : session.service.mSubscriptionManager.Coherent)
    (idle : session.reactor.mWriteInProgress = false) (name : String) :
    (¬session.Leaves session.nextWritePass →
      (session.fetched session.reactor.mPacketsQueue).filter (fun packet => packet.toName = name) ++
        session.nextWritePass.queue name = session.queue name) ∧
    (session.Leaves session.nextWritePass →
      session.fetched session.reactor.mPacketsQueue = [] ∧ session.nextWritePass.queue name = []) := by
  rcases nextWritePass_cases idle with ⟨next, nothing⟩ | ⟨empty, next, batch⟩ |
    ⟨packet, rest, queue, next, nothing⟩
  · rw [nothing, next]
    have leaves : session.Draws session.unsubscribe [] :=
      .of_unsubscribe (by rw [unsubscribe_reactor]) (by rw [unsubscribe_reactor]; rfl)
        (by rw [unsubscribe_reactor]) (fun _ => rfl)
    exact ⟨leaves.kept name, leaves.left name⟩
  · rw [next, batch]
    exact ⟨fun _ => queueIn_getPackets _ name coherent,
      fun leaves => absurd (leaves.1.symm.trans leaves.2) (by simp)⟩
  · rw [nothing, next]
    exact ⟨fun _ => rfl, fun leaves => absurd (leaves.1.symm.trans leaves.2) (by simp)⟩

theorem address_nextWritePass :
    session.nextWritePass.reactor.mContextAddress = session.reactor.mContextAddress := by
  unfold nextWritePass
  split
  · rw [leave_reactor]
  · split
    · rfl
    · split <;> rfl

theorem draws_react (coherent : session.service.mSubscriptionManager.Coherent)
    (disciplined : Disciplined session.reactor session.reactor.taken) (event : ReactorEvent) :
    session.Draws (session.react event) (session.batch event) := by
  have taken := (disciplined.react event).self.account
  have account := (disciplined.react event).account
  rw [taken] at account
  revert account
  clear taken
  unfold Session.react batch
  split
  · exact fun _ => (Still.refl session).draws
  · rename_i live
    obtain ⟨-, deliverable⟩ := not_or.mp live
    rw [not_not] at deliverable
    intro account
    cases event with
    | cancel =>
        have still : session.Still { session with
            reactor := { session.reactor with isCancelled := true } } :=
          .of_reactor rfl rfl rfl rfl
        exact still.draws
    | pass =>
        have queues := queue_nextWritePass session coherent (disciplined.polling deliverable).1
        exact ⟨address_nextWritePass, account, fun name => (queues name).1,
          fun name => (queues name).2⟩
    | onWriteDone ok =>
        cases ok with
        | true =>
            -- the answered packet leaves the reactor's queue before the pass
            have queues := queue_nextWritePass (enterLoop { session.answerWrite with
              reactor := { session.answerWrite.reactor with
                mWriteInProgress := false
                mPacketsQueue := session.reactor.mPacketsQueue.tail } }) coherent rfl
            exact ⟨address_nextWritePass, account, fun name => (queues name).1,
              fun name => (queues name).2⟩
        | false =>
            have answered : session.Still session.answerWrite := .of_reactor rfl rfl rfl rfl
            simp only [onWriteDone, Bool.false_eq_true, if_false]
            split
            · exact (answered.trans (.finish _)).draws
            · exact (answered.trans (.finish _)).draws
    | onCancel =>
        rw [keptBatch, List.drop_nil, List.append_nil] at account
        refine .of_unsubscribe (by simp only [onCancel, unsubscribe_reactor]) account
          (by simp only [onCancel, unsubscribe_reactor]) (fun d => ?_)
        simp only [onCancel, Session.unsubscribe]
        split <;> rfl
    | onDone =>
        rw [keptBatch, List.drop_nil, List.append_nil] at account
        exact .of_unsubscribe
          (by simp only [onDone, getNumberOfSubscribers_reactor, unsubscribe_reactor]) account
          (by simp only [onDone, getNumberOfSubscribers_reactor, unsubscribe_reactor])
          (fun d => session.unsubscribe.service.mSubscriptionManager.view_getNumberOfSubscribers d)

def sectionBatch (session : Session) : CallSection → List Packet
  | .startWriting => session.fetched session.reactor.mPacketsQueue
  | .checkCapacity | .subscribe _ | .countSubscribers | .unsubscribe | .countRemaining => []

theorem draws_runSection (coherent : session.service.mSubscriptionManager.Coherent)
    {part : CallSection} {rest : List CallSection} (steady : Steady session.reactor (part :: rest)) :
    session.Draws (session.runSection part) (session.sectionBatch part) := by
  cases part with
  | checkCapacity =>
      have counted : session.Still session.getNumberOfSubscribers.2 := .getNumberOfSubscribers
      simp only [runSection, checkCapacity]
      split
      · exact (counted.trans (.finish _)).draws
      · exact counted.draws
  | subscribe request => exact (Still.subscribeTo request).draws
  | countSubscribers =>
      simp only [runSection, countSubscribers]
      split
      · have measured : session.getNumberOfSubscribers.2.Still
            { session.getNumberOfSubscribers.2 with service :=
              { session.getNumberOfSubscribers.2.service with
                mMetrics := session.getNumberOfSubscribers.2.service.mMetrics.updateUtilization
                  (session.getNumberOfSubscribers.1 /
                    max 1 session.service.mOptions.mMaximumNumberOfSubscribers) } } :=
          .of_reactor rfl rfl rfl rfl
        exact (Still.getNumberOfSubscribers.trans measured).draws
      · exact (Still.refl session).draws
  | startWriting =>
      have atRest := steady.starting List.mem_cons_self
      have queues := queue_nextWritePass session.enterLoop coherent atRest.idle
      have drawn := steady.disciplined.nextWrite atRest.idle atRest.none
      exact ⟨address_nextWritePass, drawn.self.account.symm.trans drawn.account,
        fun name => (queues name).1, fun name => (queues name).2⟩
  | unsubscribe =>
      exact .of_unsubscribe (by simp only [runSection, unsubscribe_reactor])
        (by simp only [runSection, unsubscribe_reactor]; rfl)
        (by simp only [runSection, unsubscribe_reactor]) (fun _ => rfl)
  | countRemaining =>
      have ended : session.getNumberOfSubscribers.2.Still
          { session.getNumberOfSubscribers.2 with
            reactor := { session.getNumberOfSubscribers.2.reactor with done := true } } :=
        .of_reactor rfl rfl rfl rfl
      exact (Still.getNumberOfSubscribers.trans ended).draws

end Steps

end Session

end UDataPacketService
