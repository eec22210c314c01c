import UDataPacketService.BoundedFifo
import UDataPacketService.ReactorProtocol

/-! The packets of one serving reactor, from the batches it fetches to the calls of
`StartWrite`. The service it fetches from may be any service at every step, so the
schedule of what `getPackets` returns is arbitrary. -/
namespace UDataPacketService

/-- The packets passed to `StartWrite`, in order. -/
def writtenPackets (calls : List ReactorCall) : List Packet :=
  calls.filterMap (fun | .startWrite packet => some packet | .finish _ => none)

@[simp] theorem writtenPackets_finish (calls : List ReactorCall) (status : Status) :
    writtenPackets (calls ++ [.finish status]) = writtenPackets calls := by
  simp [writtenPackets, List.filterMap_append]

@[simp] theorem writtenPackets_startWrite (calls : List ReactorCall) (packet : Packet) :
    writtenPackets (calls ++ [.startWrite packet]) = writtenPackets calls ++ [packet] := by
  simp [writtenPackets, List.filterMap_append]

/-- What is queued behind the packet of the write in progress. -/
def Reactor.waiting (reactor : Reactor) : List Packet :=
  if reactor.mWriteInProgress then reactor.mPacketsQueue.tail else reactor.mPacketsQueue

/-- What a batch that meets an empty queue leaves there: an overflow drops from the front. -/
def keptBatch (mMaximumQueueSize : ℕ) (batch : List Packet) : List Packet :=
  batch.drop (batch.length - (mMaximumQueueSize + 1))

theorem pushPackets_nil (mMaximumQueueSize : ℕ) (batch : List Packet) :
    Session.pushPackets mMaximumQueueSize [] batch = keptBatch mMaximumQueueSize batch :=
  BoundedFifo.foldl_pushDropping (Nat.succ_pos mMaximumQueueSize) batch [] (Nat.zero_le _)

namespace Session

/-- What a pass of the loop fetches when the given packets are queued. -/
def fetched (session : Session) (mPacketsQueue : List Packet) : List Packet :=
  if session.service.mKeepRunning && !session.reactor.isCancelled && mPacketsQueue.isEmpty then
    (session.service.mSubscriptionManager.getPackets session.reactor.mContextAddress).1
  else []

/-- The batch that the callback of an event fetches. -/
def batch (session : Session) (event : ReactorEvent) : List Packet :=
  if session.reactor.done = true ∨ ¬event.Deliverable session.reactor then []
  else
    match event with
    | .pass => session.fetched session.reactor.mPacketsQueue
    | .onWriteDone true => session.fetched session.reactor.mPacketsQueue.tail
    | .cancel | .onWriteDone false | .onCancel | .onDone => []

end Session

/-- An event at the reactor, or a change of the service by anyone else. -/
inductive WriterEvent where
  | reactor (event : ReactorEvent)
  | service (service : Service)

/-- One reactor in a service that may change at will; the outputs are the batches. -/
def writerMachine : Machine Session WriterEvent (List Packet) where
  step session
    | .reactor event => (session.react event, session.batch event)
    | .service service => ({ session with service := service }, [])

namespace Session
variable {session : Session}

/-- A pass leaves the loop, fetches for an empty queue, or writes the front. -/
theorem nextWritePass_cases (idle : session.reactor.mWriteInProgress = false) :
    (session.nextWritePass = session.leave ∧ session.fetched session.reactor.mPacketsQueue = []) ∨
      (session.reactor.mPacketsQueue = [] ∧ session.nextWritePass = session.fetchPackets ∧
        session.fetched session.reactor.mPacketsQueue =
          (session.service.mSubscriptionManager.getPackets session.reactor.mContextAddress).1) ∨
      ∃ packet rest, session.reactor.mPacketsQueue = packet :: rest ∧
        session.nextWritePass = session.startWrite packet ∧
        session.fetched session.reactor.mPacketsQueue = [] := by
  unfold nextWritePass fetched
  cases running : session.service.mKeepRunning with
  | false => exact .inl ⟨by simp, by simp⟩
  | true =>
      cases cancelled : session.reactor.isCancelled with
      | true => exact .inl ⟨by simp, by simp⟩
      | false =>
          cases queue : session.reactor.mPacketsQueue with
          | nil => exact .inr (.inl ⟨rfl, by simp, by simp⟩)
          | cons packet rest => exact .inr (.inr ⟨packet, rest, rfl, by simp [idle], by simp⟩)

/-- The flag, the front of the queue and the write in flight agree, and what was
written or waits is what the batches left. -/
structure Disciplined (reactor : Reactor) (batches : List Packet) : Prop where
  size : reactor.mMaximumQueueSize = 2048
  single : reactor.outstandingWrites ≤ 1
  polling : reactor.polling = true →
    reactor.mWriteInProgress = false ∧ reactor.outstandingWrites = 0
  flagged : 0 < reactor.outstandingWrites → reactor.mWriteInProgress = true
  front : reactor.mWriteInProgress = true → ∃ packet rest,
    reactor.mPacketsQueue = packet :: rest ∧ (writtenPackets reactor.calls).getLast? = some packet
  account : writtenPackets reactor.calls ++ reactor.waiting = batches

variable {batches : List Packet}

theorem Disciplined.congr {reactor next : Reactor} (h : Disciplined reactor batches)
    (size : next.mMaximumQueueSize = reactor.mMaximumQueueSize)
    (queue : next.mPacketsQueue = reactor.mPacketsQueue)
    (written : writtenPackets next.calls = writtenPackets reactor.calls)
    (flag : next.mWriteInProgress = reactor.mWriteInProgress)
    (writes : next.outstandingWrites = reactor.outstandingWrites)
    (loops : next.polling = true → reactor.polling = true) : Disciplined next batches where
  size := size.trans h.size
  single := writes.symm ▸ h.single
  polling := fun polls => by
    rw [flag, writes]
    exact h.polling (loops polls)
  flagged := by
    rw [writes, flag]
    exact h.flagged
  front := by
    rw [flag, queue, written]
    exact h.front
  account := by
    rw [written, Reactor.waiting, flag, queue]
    exact h.account

theorem Disciplined.nextWritePass (h : Disciplined session.reactor batches)
    (loops : session.reactor.polling = true) :
    Disciplined session.nextWritePass.reactor
      (batches ++ keptBatch 2048 (session.fetched session.reactor.mPacketsQueue)) := by
  obtain ⟨idle, none⟩ := h.polling loops
  rcases nextWritePass_cases idle with ⟨next, nothing⟩ | ⟨empty, next, pulled⟩ |
    ⟨packet, rest, queue, next, nothing⟩
  · rw [next, nothing, leave_reactor]
    have unchanged := h.account
    exact ⟨h.size, h.single, fun polls => absurd polls Bool.false_ne_true, h.flagged,
      by simpa using h.front, by simpa [keptBatch, Reactor.waiting] using unchanged⟩
  · have queued : session.fetchPackets.reactor.mPacketsQueue =
        keptBatch 2048 (session.fetched session.reactor.mPacketsQueue) := by
      rw [pulled, ← pushPackets_nil, ← h.size]
      simp only [fetchPackets, empty]
    have unchanged := h.account
    rw [Reactor.waiting, idle, if_neg Bool.false_ne_true, empty, List.append_nil] at unchanged
    rw [next]
    refine ⟨h.size, h.single, h.polling, h.flagged, fun busy => ?_, ?_⟩
    · exact absurd (idle.symm.trans busy) Bool.false_ne_true
    · have waits : session.fetchPackets.reactor.waiting =
          session.fetchPackets.reactor.mPacketsQueue := by
        rw [Reactor.waiting, show session.fetchPackets.reactor.mWriteInProgress = false from idle]
        rfl
      rw [waits, queued, ← unchanged]
      rfl
  · have unchanged := h.account
    rw [Reactor.waiting, idle, if_neg Bool.false_ne_true, queue] at unchanged
    rw [next, nothing]
    refine ⟨h.size, (congrArg Nat.succ none).le, fun polls => absurd polls Bool.false_ne_true,
      fun _ => rfl, fun _ => ?_, ?_⟩
    · exact ⟨packet, rest, queue, by simp [startWrite]⟩
    · have behind : (session.startWrite packet).reactor.waiting = rest := by
        simp only [startWrite, Reactor.waiting, if_true, queue, List.tail_cons]
      rw [behind, startWrite, writtenPackets_startWrite, List.append_assoc, List.singleton_append,
        unchanged, keptBatch, List.drop_nil, List.append_nil]

theorem Disciplined.nextWrite (h : Disciplined session.reactor batches)
    (idle : session.reactor.mWriteInProgress = false)
    (none : session.reactor.outstandingWrites = 0) :
    Disciplined session.nextWrite.reactor
      (batches ++ keptBatch 2048 (session.fetched session.reactor.mPacketsQueue)) := by
  have entered : Disciplined session.enterLoop.reactor batches :=
    ⟨h.size, h.single, fun _ => ⟨idle, none⟩, h.flagged, h.front, h.account⟩
  exact entered.nextWritePass rfl

/-- A successful write takes its packet from the queue and enters the loop again. -/
theorem Disciplined.written (h : Disciplined session.reactor batches)
    (pending : 0 < session.reactor.outstandingWrites) :
    Disciplined (session.answerWrite.onWriteDone true).reactor
      (batches ++ keptBatch 2048 (session.fetched session.reactor.mPacketsQueue.tail)) := by
  have busy := h.flagged pending
  have last : session.reactor.outstandingWrites - 1 = 0 := by
    have := h.single
    omega
  have unchanged := h.account
  rw [Reactor.waiting, if_pos busy] at unchanged
  have popped : Disciplined { session.answerWrite.reactor with
      mWriteInProgress := false
      mPacketsQueue := session.reactor.mPacketsQueue.tail } batches :=
    ⟨h.size, last.le.trans (Nat.zero_le 1), fun _ => ⟨rfl, last⟩,
      fun more => absurd (last ▸ more) (lt_irrefl 0), nofun, unchanged⟩
  exact Disciplined.nextWrite popped rfl last

/-- A failed write leaves its packet at the front and the flag up. -/
theorem Disciplined.failed (h : Disciplined session.reactor batches)
    (quiet : session.reactor.polling = false) :
    Disciplined (session.answerWrite.onWriteDone false).reactor batches := by
  have finished (status : Status) :
      Disciplined (session.answerWrite.finish status).reactor batches :=
    ⟨h.size, (Nat.sub_le _ _).trans h.single,
      fun polls => absurd (quiet.symm.trans polls) Bool.false_ne_true,
      fun more => h.flagged (more.trans_le (Nat.sub_le _ _)),
      by simpa [finish, answerWrite] using h.front, by
        simp only [finish, answerWrite, writtenPackets_finish]
        exact h.account⟩
  simp only [onWriteDone, Bool.false_eq_true, if_false]
  split
  · exact finished _
  · exact finished _

/-- Every event keeps the discipline and adds the batch it fetches. -/
theorem Disciplined.react (h : Disciplined session.reactor batches) (event : ReactorEvent) :
    Disciplined (session.react event).reactor (batches ++ keptBatch 2048 (session.batch event)) := by
  have still {next : Session} (same : Disciplined next.reactor batches) :
      Disciplined next.reactor (batches ++ keptBatch 2048 []) := by
    rwa [keptBatch, List.drop_nil, List.append_nil]
  unfold Session.react batch
  split
  · exact still h
  · rename_i live
    obtain ⟨-, deliverable⟩ := not_or.mp live
    rw [not_not] at deliverable
    cases event with
    | cancel => exact still (h.congr rfl rfl rfl rfl rfl id)
    | pass => exact h.nextWritePass deliverable
    | onWriteDone ok =>
        obtain ⟨pending, quiet⟩ := deliverable
        cases ok with
        | true => exact h.written pending
        | false => exact still (h.failed quiet)
    | onCancel =>
        refine still ?_
        simp only [onCancel, unsubscribe_reactor]
        exact h.congr rfl rfl rfl rfl rfl id
    | onDone =>
        refine still ?_
        simp only [onDone, getNumberOfSubscribers_reactor, unsubscribe_reactor]
        exact h.congr rfl rfl rfl rfl rfl id

theorem disciplined_construct (service : Service) (call : IncomingCall) :
    Disciplined (construct service call).reactor
      (keptBatch 2048 ((register service call).fetched [])) := by
  have registered : Disciplined (register service call).reactor [] := by
    rw [register_reactor]
    refine ⟨rfl, Nat.zero_le 1, nofun, nofun, nofun, ?_⟩
    simp [writtenPackets, Reactor.waiting, List.filterMap_map]
  have first := registered.nextWrite (by rw [register_reactor]) (by rw [register_reactor])
  rwa [List.nil_append, show (register service call).reactor.mPacketsQueue = [] by
    rw [register_reactor]] at first

end Session

/-- The run keeps the discipline, and the batches are those it fetched. -/
theorem disciplined_run (service : Service) (call : IncomingCall) (events : List WriterEvent) :
    let start := Session.construct service call
    (Session.Disciplined (writerMachine.run start events).reactor
      (((Session.register service call).fetched [] :: writerMachine.trace start events).map
        (keptBatch 2048)).flatten) := by
  intro start
  induction events using List.reverseRecOn with
  | nil => simpa using Session.disciplined_construct service call
  | append_singleton events event ih =>
      rw [Machine.run_concat, Machine.trace_concat, ← List.cons_append, List.map_append,
        List.flatten_append, List.map_singleton, List.flatten_singleton]
      cases event with
      | reactor event => exact ih.react event
      | service service =>
          rw [show (writerMachine.step (writerMachine.run start events) (.service service)).2 = [] from
            rfl, keptBatch, List.drop_nil, List.append_nil]
          exact ih

/-- Nothing but the answer to a write touches the queue while the write is in flight. -/
theorem queue_of_in_flight {session : Session} {batches : List Packet} {event : WriterEvent}
    (h : Session.Disciplined session.reactor batches) (pending : 0 < session.reactor.outstandingWrites)
    (other : ∀ ok, event ≠ .reactor (.onWriteDone ok)) :
    (writerMachine.step session event).1.reactor.mPacketsQueue = session.reactor.mPacketsQueue := by
  cases event with
  | service service => rfl
  | reactor event =>
      change (session.react event).reactor.mPacketsQueue = _
      unfold Session.react
      split
      · rfl
      · rename_i live
        obtain ⟨-, deliverable⟩ := not_or.mp live
        rw [not_not] at deliverable
        cases event with
        | cancel => rfl
        | pass =>
            -- a polling loop has no write in flight
            have none := (h.polling deliverable).2
            omega
        | onWriteDone ok => exact absurd rfl (other ok)
        | onCancel => simp only [Session.onCancel, Session.unsubscribe_reactor]
        | onDone =>
            simp only [Session.onDone, Session.getNumberOfSubscribers_reactor,
              Session.unsubscribe_reactor]

/-- In every run of a reactor, in any service, at most one write is in flight, its
packet stays at the front of the queue until it is answered, no answer pops an empty
queue, and the packets written and waiting are those of the batches in order, less
what the overflow of a batch dropped. -/
theorem write_discipline (service : Service) (call : IncomingCall) (events : List WriterEvent) :
    let start := Session.construct service call
    let session := writerMachine.run start events
    let batches := (Session.register service call).fetched [] :: writerMachine.trace start events
    session.reactor.outstandingWrites ≤ 1 ∧
      (0 < session.reactor.outstandingWrites →
        (∃ packet rest, session.reactor.mPacketsQueue = packet :: rest ∧
          (writtenPackets session.reactor.calls).getLast? = some packet) ∧
        ∀ event, (∀ ok, event ≠ .reactor (.onWriteDone ok)) →
          (writerMachine.step session event).1.reactor.mPacketsQueue =
            session.reactor.mPacketsQueue) ∧
      (∀ ok, (ReactorEvent.onWriteDone ok).Deliverable session.reactor →
        session.reactor.mPacketsQueue ≠ []) ∧
      writtenPackets session.reactor.calls ++ session.reactor.waiting =
        (batches.map (keptBatch 2048)).flatten := by
  intro start session batches
  have h : Session.Disciplined session.reactor (batches.map (keptBatch 2048)).flatten :=
    disciplined_run service call events
  refine ⟨h.single, fun pending => ⟨h.front (h.flagged pending), fun event other =>
    queue_of_in_flight h pending other⟩, ?_, h.account⟩
  rintro ok ⟨pending, -⟩
  obtain ⟨packet, rest, queue, -⟩ := h.front (h.flagged pending)
  rw [queue]
  exact List.cons_ne_nil packet rest

end UDataPacketService
