import UDataPacketService.ClientIsolation
import UDataPacketService.WriteDiscipline

/-! The bound on the queue of a write reactor. The loop that queues a batch drops the
front of the queue when it is longer than the bound, so the packet that it pushes
next leaves the queue one past it. -/
namespace UDataPacketService
open Std (ExtTreeMap)

/-- What the queue should hold after a step that fetched the batch. -/
structure RespectsBound (reactor : Reactor) (batch : List Packet) : Prop where
  bounded : reactor.mPacketsQueue.length ≤ reactor.mMaximumQueueSize
  filled : batch ≠ [] →
    reactor.mPacketsQueue = batch.drop (batch.length - reactor.mMaximumQueueSize)

/-- The step from the session leaves its queue as it should be. -/
def FillRespectsBound (session : Session) (event : WriterEvent) : Prop :=
  RespectsBound (writerMachine.step session event).1.reactor (writerMachine.step session event).2

/-- What a step does to the queue: it takes packets from the front, or it fetches for an
empty queue and keeps what `pushPackets` keeps of the batch. -/
structure QueueStep (before after : Reactor) (batch : List Packet) : Prop where
  size : after.mMaximumQueueSize = before.mMaximumQueueSize
  queue : (batch = [] ∧ after.mPacketsQueue <:+ before.mPacketsQueue) ∨
    after.mPacketsQueue = keptBatch before.mMaximumQueueSize batch

namespace Session
variable {session : Session}

theorem queueStep_nextWritePass (session : Session) :
    QueueStep session.reactor session.nextWritePass.reactor
      (session.fetched session.reactor.mPacketsQueue) := by
  unfold nextWritePass fetched
  cases running : session.service.mKeepRunning && !session.reactor.isCancelled with
  | false =>
      have leaves : (!session.service.mKeepRunning || session.reactor.isCancelled) = true := by
        simpa using congrArg not running
      rw [if_pos leaves, leave_reactor]
      exact ⟨rfl, .inl ⟨rfl, List.suffix_rfl⟩⟩
  | true =>
      have stays : (!session.service.mKeepRunning || session.reactor.isCancelled) = false := by
        simpa using congrArg not running
      rw [stays]
      cases queue : session.reactor.mPacketsQueue with
      | nil =>
          refine ⟨rfl, .inr ?_⟩
          rw [← pushPackets_nil]
          simp only [fetchPackets, queue, Bool.true_and, List.isEmpty_nil, if_true,
            Bool.false_eq_true, if_false]
      | cons packet rest =>
          simp only [Bool.false_eq_true, if_false, Bool.true_and, List.isEmpty_cons]
          split
          · exact ⟨rfl, .inl ⟨rfl, queue ▸ List.suffix_rfl⟩⟩
          · exact ⟨rfl, .inl ⟨rfl, queue ▸ List.suffix_rfl⟩⟩

theorem queueStep_react (event : ReactorEvent) :
    QueueStep session.reactor (session.react event).reactor (session.batch event) := by
  have same {reactor : Reactor} (size : reactor.mMaximumQueueSize = session.reactor.mMaximumQueueSize)
      (queue : reactor.mPacketsQueue = session.reactor.mPacketsQueue) :
      QueueStep session.reactor reactor [] := ⟨size, .inl ⟨rfl, queue ▸ List.suffix_rfl⟩⟩
  unfold react batch
  split
  · exact same rfl rfl
  · cases event with
    | cancel => exact same rfl rfl
    | pass => exact queueStep_nextWritePass session
    | onWriteDone ok =>
        cases ok with
        | true =>
            -- the answered packet leaves the queue before the loop is entered again
            obtain ⟨size, queue⟩ := queueStep_nextWritePass (enterLoop
              { session.answerWrite with reactor := { session.answerWrite.reactor with
                mWriteInProgress := false
                mPacketsQueue := session.reactor.mPacketsQueue.tail } })
            refine ⟨size, queue.imp_left ?_⟩
            rintro ⟨none, suffix⟩
            exact ⟨none, suffix.trans (List.tail_suffix _)⟩
        | false =>
            simp only [onWriteDone, Bool.false_eq_true, if_false]
            split
            · exact same rfl rfl
            · exact same rfl rfl
    | onCancel =>
        simp only [onCancel, unsubscribe_reactor]
        exact same rfl rfl
    | onDone =>
        simp only [onDone, getNumberOfSubscribers_reactor, unsubscribe_reactor]
        exact same rfl rfl

theorem construct_eq_react (service : Service) (call : IncomingCall) :
    construct service call = (register service call).enterLoop.react .pass := by
  have live : ¬((register service call).enterLoop.reactor.done = true ∨
      ¬ReactorEvent.pass.Deliverable (register service call).enterLoop.reactor) := by
    rw [enterLoop, register_reactor]
    simp [ReactorEvent.Deliverable]
  rw [react, if_neg live]
  rfl

theorem batch_enterLoop {service : Service} {call : IncomingCall} (before : Service)
    (running : service.mKeepRunning = true) (live : call.isCancelled = false) :
    batch ⟨service, (register before call).enterLoop.reactor⟩ .pass =
      (service.mSubscriptionManager.getPackets call.context).1 := by
  simp [batch, fetched, enterLoop, register_reactor, ReactorEvent.Deliverable, running, live]

end Session

theorem queueStep_step (session : Session) (event : WriterEvent) :
    QueueStep session.reactor (writerMachine.step session event).1.reactor
      (writerMachine.step session event).2 := by
  cases event with
  | reactor event => exact Session.queueStep_react event
  | service service => exact ⟨rfl, .inl ⟨rfl, List.suffix_rfl⟩⟩

/-- From a queue within the bound a step leaves it as it should be exactly if the batch
does not overflow. -/
theorem QueueStep.respectsBound_iff {before after : Reactor} {batch : List Packet}
    (h : QueueStep before after batch)
    (within : before.mPacketsQueue.length ≤ before.mMaximumQueueSize) :
    RespectsBound after batch ↔ batch.length ≤ before.mMaximumQueueSize := by
  obtain ⟨size, ⟨rfl, suffix⟩ | kept⟩ := h
  · refine iff_of_true ⟨?_, fun fetched => absurd rfl fetched⟩ (Nat.zero_le _)
    exact size ▸ suffix.length_le.trans within
  · constructor
    · intro respects
      have bounded := respects.bounded
      rw [kept, keptBatch, List.length_drop, size] at bounded
      omega
    · intro fits
      have whole : after.mPacketsQueue = batch := by
        rw [kept, keptBatch, Nat.sub_eq_zero_of_le (Nat.le_succ_of_le fits), List.drop_zero]
      refine ⟨by rwa [whole, size], fun _ => ?_⟩
      rw [whole, size, Nat.sub_eq_zero_of_le fits, List.drop_zero]

/-- The queue is within its bound, which no step changes. -/
structure Session.Within (bound : ℕ) (session : Session) : Prop where
  size : session.reactor.mMaximumQueueSize = bound
  queue : session.reactor.mPacketsQueue.length ≤ bound

namespace Session.Within
variable {bound : ℕ} {session : Session}

theorem start (service : Service) (call : IncomingCall) :
    Within (register service call).enterLoop.reactor.mMaximumQueueSize
      (register service call).enterLoop := by
  refine ⟨rfl, ?_⟩
  simp only [enterLoop, register_reactor]
  exact Nat.zero_le _

theorem respectsBound_iff (h : session.Within bound) (event : WriterEvent) :
    FillRespectsBound session event ↔ (writerMachine.step session event).2.length ≤ bound := by
  obtain ⟨rfl, queue⟩ := h
  exact (queueStep_step session event).respectsBound_iff queue

theorem step (h : session.Within bound) (event : WriterEvent)
    (respects : FillRespectsBound session event) :
    (writerMachine.step session event).1.Within bound := by
  have size := (queueStep_step session event).size.trans h.size
  exact ⟨size, size ▸ respects.bounded⟩

end Session.Within

/-- In every run of a reactor, in any service, every step leaves the queue as it should
be exactly if no batch is longer than the bound. -/
theorem writer_queue_bounded_iff (service : Service) (call : IncomingCall)
    (events : List WriterEvent) :
    let start := (Session.register service call).enterLoop
    writerMachine.Admissible FillRespectsBound start events ↔
      ∀ batch ∈ writerMachine.trace start events,
        batch.length ≤ start.reactor.mMaximumQueueSize := by
  intro start
  have congruent := writerMachine.admissible_congr
    (Session.Within start.reactor.mMaximumQueueSize)
    (fun _ event within => within.respectsBound_iff event)
    (fun _ event within respects => within.step event respects)
    (Session.Within.start service call) events
  exact congruent.trans
    (writerMachine.admissible_outputs_iff (fun batch => batch.length ≤ _) start events)

/-- A first batch of more than 2048 packets leaves the queue past its bound. -/
theorem first_batch_over_bound (before : Service) (options : ServerOptions)
    (manager : SubscriptionManager) (c : ContextAddress) (request : Request)
    (long : 2048 < (manager.getPackets c).1.length) :
    ¬writerMachine.Admissible FillRespectsBound
      (Session.register before { context := c, request := request }).enterLoop
      [.service { mOptions := options, mSubscriptionManager := manager }, .reactor .pass] := by
  rintro ⟨-, pass, -⟩
  let session : Session := ⟨{ mOptions := options, mSubscriptionManager := manager },
    (Session.register before { context := c, request := request }).enterLoop.reactor⟩
  have within : session.Within 2048 := by
    refine ⟨?_, ?_⟩
    · simp only [session, Session.enterLoop, Session.register_reactor]
    · simp only [session, Session.enterLoop, Session.register_reactor]
      exact Nat.zero_le _
  have fits : (session.batch .pass).length ≤ 2048 :=
    (within.respectsBound_iff (.reactor .pass)).mp pass
  rw [Session.batch_enterLoop before rfl rfl] at fits
  exact absurd long (not_lt.mpr fits)

section Flood
variable (options : StreamOptions) (c : ContextAddress)

def flooded (packets : List Packet) : SubscriptionManager :=
  managerMachine.run (.fresh options) (.subscribeToAll c :: packets.map .enqueuePacket)

theorem coherent_flooded (packets : List Packet) : (flooded options c packets).Coherent :=
  run_coherent options _

theorem queueAt_flooded {packets : List Packet} (accepted : ∀ packet ∈ packets, packet.Accepted)
    (distinct : (packets.map Packet.toName).Nodup) :
    ((flooded options c packets).view c).pendingAll = true ∧
      (∀ name, name ∈ ((flooded options c packets).view c).streams →
        name ∈ packets.map Packet.toName) ∧
      ∀ packet ∈ packets,
        ((flooded options c packets).view c).queueAt packet.toName = some [packet] := by
  induction packets using List.reverseRecOn with
  | nil =>
      have noKeys : (SubscriptionManager.fresh options).mStreamsMap.keys = [] := by
        simp [SubscriptionManager.fresh]
      have start : (flooded options c []).view c =
          { (SubscriptionManager.fresh options).view c with pendingAll := true } := by
        rw [flooded, List.map_nil, managerMachine.run_cons, managerMachine.run_nil,
          view_managerMachine_step, ClientView.step, if_pos rfl, ClientView.subscribeToAll,
          SubscriptionManager.view_streams_keys, noKeys, List.foldl_nil, if_neg]
        simp [SubscriptionManager.view, SubscriptionManager.fresh]
      rw [start]
      refine ⟨rfl, fun name member => ?_, List.forall_mem_nil _⟩
      rw [← ExtTreeMap.mem_keys] at member
      rw [SubscriptionManager.view_streams_keys, noKeys] at member
      cases member
  | append_singleton packets packet ih =>
      rw [List.forall_mem_append, List.forall_mem_singleton] at accepted
      rw [List.map_append, List.map_singleton, List.nodup_append] at distinct
      obtain ⟨once, -, apart⟩ := distinct
      obtain ⟨all, known, queues⟩ := ih accepted.1 once
      have new : packet.toName ∉ packets.map Packet.toName :=
        fun member => apart _ member _ (List.mem_singleton_self _) rfl
      have coherent := coherent_flooded options c packets c
      have receives := coherent.receives packet
      have next : (flooded options c (packets ++ [packet])).view c =
          ((flooded options c packets).view c).enqueue packet := by
        rw [flooded, List.map_append, List.map_singleton, ← List.cons_append,
          managerMachine.run_concat, view_managerMachine_step, ClientView.step,
          if_pos accepted.2]
        rfl
      rw [next]
      refine ⟨receives.pendingAll.trans all, fun name member => ?_, ?_⟩
      · rw [List.map_append, List.map_singleton, List.mem_append, List.mem_singleton]
        rcases (ClientView.mem_enqueue_streams name packet coherent).mp member with here | old
        · exact .inr here.symm
        · exact .inl (known name old)
      · rw [List.forall_mem_append, List.forall_mem_singleton]
        constructor
        · intro other member
          have differs : packet.toName ≠ other.toName :=
            fun same => new (same ▸ List.mem_map_of_mem member)
          rw [ClientView.queueAt_enqueue _ coherent, if_neg differs]
          exact queues other member
        · rw [ClientView.queueAt_enqueue _ coherent, if_pos rfl,
            if_neg (fun member => new (known _ member)),
            if_pos (show ((flooded options c packets).view c).Awaits packet.toName from .inl all)]

/-- One call of `getPackets` returns all of the packets. -/
theorem length_getPackets_flooded {packets : List Packet}
    (accepted : ∀ packet ∈ packets, packet.Accepted)
    (distinct : (packets.map Packet.toName).Nodup) :
    packets.length ≤ ((flooded options c packets).getPackets c).1.length := by
  refine (List.Nodup.of_map _ distinct).length_le_of_subset (fun packet member => ?_)
  have queue := (queueAt_flooded options c accepted distinct).2.2 packet member
  have coherent := coherent_flooded options c packets c
  have recorded := coherent.recorded packet.toName (by rw [queue]; rfl)
  have visited := List.one_le_count_iff.mpr
    ((flooded options c packets).mem_walk_of_own c recorded)
  have front := ClientView.filter_pullAll packet.toName coherent (flooded options c packets).walk
  rw [queue, Option.getD_some, List.take_of_length_le visited] at front
  rw [SubscriptionManager.getPackets_fst]
  exact List.mem_of_mem_filter (front ▸ List.mem_singleton_self packet)

end Flood

def floodPackets (n : ℕ) : List Packet :=
  (List.range n).map (fun i => channelPacket (String.ofList (List.replicate i 'Z')) 0 100)

theorem toName_channelPacket (channel : String) (startSeconds : Int) (samples : UInt32) :
    (channelPacket channel startSeconds samples).toName =
      "UU" ++ "." ++ "CWU" ++ "." ++ channel ++ "." ++ "01" := by
  have coded : (channelPacket channel startSeconds samples).streamIdentifier.locationCode ≠ "" :=
    show "01" ≠ "" by decide
  rw [Packet.toName, StreamIdentifier.toName, if_neg coded]
  rfl

theorem length_batch_floodPackets (n : ℕ) (options : StreamOptions) (c : ContextAddress) :
    n ≤ ((flooded options c (floodPackets n)).getPackets c).1.length := by
  have accepted : ∀ packet ∈ floodPackets n, packet.Accepted := by
    rw [floodPackets, List.forall_mem_map]
    exact fun i _ => ⟨nofun, nofun, nofun, by norm_num [channelPacket, Packet.samplingRate], nofun⟩
  have distinct : ((floodPackets n).map Packet.toName).Nodup := by
    rw [floodPackets, List.map_map]
    refine List.nodup_range.map (fun i j same => ?_)
    simpa [toName_channelPacket] using congrArg String.length same
  have many := length_getPackets_flooded options c accepted distinct
  rwa [floodPackets, List.length_map, List.length_range, ← floodPackets] at many

/-- A client of all streams whose first batch has a packet of each of 2049 streams. -/
theorem writer_queue_over_bound :
    ¬writerMachine.Admissible FillRespectsBound
      (Session.register { mOptions := {}, mSubscriptionManager := .fresh ⟨1, by decide⟩ }
        { context := 7, request := .subscribeToAll }).enterLoop
      [.service { mOptions := {}
                  mSubscriptionManager := flooded ⟨1, by decide⟩ 7 (floodPackets 2049) },
        .reactor .pass] := by
  have long : 2048 < ((flooded ⟨1, by decide⟩ 7 (floodPackets 2049)).getPackets 7).1.length :=
    lt_of_lt_of_le (by decide) (length_batch_floodPackets 2049 ⟨1, by decide⟩ 7)
  exact first_batch_over_bound _ _ _ _ _ long

end UDataPacketService
