import UDataPacketService.PacketArrival
import UDataPacketService.BoundedFifo

/-! What a client receives from one stream. From the call that opens its interest
to the call that closes it, the client's queue is a bounded fifo of the packets
enqueued in between. -/
namespace UDataPacketService
open Std (ExtTreeMap ExtTreeSet)
open OrderedContainers

def Operation.Opens (c : ContextAddress) (name : String) : Operation → Prop
  | .subscribe d identifiers => d = c ∧ name ∈ identifiers.map StreamIdentifier.toName
  | .subscribeToAll d => d = c
  | _ => False

def Operation.Closes (c : ContextAddress) : Operation → Prop
  | .unsubscribeFromAll d => d = c
  | .unsubscribeAll => True
  | _ => False

def Operation.arrival (name : String) : Operation → Option Packet
  | .enqueuePacket packet => if packet.Accepted ∧ packet.toName = name then some packet else none
  | _ => none

/-- After these calls the context is inside an interest period for the stream. -/
def Interested (c : ContextAddress) (name : String) (operations : List Operation) : Prop :=
  ∃ earlier opening later, operations = earlier ++ opening :: later ∧
    opening.Opens c name ∧ ∀ operation ∈ later, ¬operation.Closes c

def arrivals (name : String) (operations : List Operation) : List (ℕ × Packet) :=
  operations.zipIdx.filterMap (fun entry => (entry.1.arrival name).map (Prod.mk entry.2))

def received (c : ContextAddress) (name : String) : Operation × Reply → List Packet
  | (.getPackets d, .packets result) =>
      if d = c then result.filter (fun packet => packet.toName = name) else []
  | _ => []

def delivered (c : ContextAddress) (name : String) (manager : SubscriptionManager)
    (operations : List Operation) : List Packet :=
  (operations.zip (managerMachine.trace manager operations)).flatMap (received c name)

def queueIn (c : ContextAddress) (name : String) (manager : SubscriptionManager) : List Packet :=
  (manager.mStreamsMap[name]?.bind (fun stream => stream.queueOf c)).getD []

theorem queueIn_eq_queueAt (c : ContextAddress) (name : String) (manager : SubscriptionManager) :
    queueIn c name manager = ((manager.view c).queueAt name).getD [] := by
  rw [queueIn, ClientView.queueAt, SubscriptionManager.view_streams_getElem?, Option.bind_map]
  rfl

/-- The delivery law after `k` calls of an interest period that starts in `manager`. -/
structure DeliveryLaw (options : StreamOptions) (c : ContextAddress) (name : String)
    (manager : SubscriptionManager) (period : List Operation) (kept : ℕ → List (ℕ × Packet))
    (k : ℕ) : Prop where
  /-- In order and without repetition, by position of the enqueuing call. -/
  subsequence : (kept k).Sublist (arrivals name (period.take k))
  /-- What is kept is what was returned, followed by what is queued. -/
  content : (kept k).map Prod.snd = delivered c name manager (period.take k) ++
    queueIn c name (managerMachine.run manager (period.take k))
  bounded : (queueIn c name (managerMachine.run manager (period.take k))).length ≤
    options.mMaximumQueueSize
  /-- A missing packet was the front of a full queue when a later packet arrived. -/
  missing : ∀ entry ∈ arrivals name (period.take k), entry ∉ kept k →
    ∃ m operation, m < k ∧ entry.1 < m ∧ period[m]? = some operation ∧
      (operation.arrival name).isSome ∧
      (queueIn c name (managerMachine.run manager (period.take m))).length =
        options.mMaximumQueueSize ∧
      (kept m)[(delivered c name manager (period.take m)).length]? = some entry

namespace ClientView
variable (c : ContextAddress) (name : String) (view : ClientView)

/-- The client is a subscriber of the stream, or will be when the stream appears. -/
def Serves : Prop := (view.queueAt name).isSome ∨ (name ∉ view.streams ∧ view.Awaits name)

instance (view : ClientView) (name : String) : Decidable (view.Serves name) :=
  inferInstanceAs (Decidable (_ ∨ _))

def Ignores : Prop := view.queueAt name = none ∧ ¬view.Awaits name

/-- The event at the queue of one stream that a call amounts to. -/
def fifoEvent (walk : List String) (operation : Operation) : BoundedFifo.Event Packet :=
  match operation.arrival name with
  | some packet => .push packet
  | none =>
      match operation with
      | .getPackets d => .pull (if d = c then walk.count name else 0)
      | _ => .pull 0

theorem arrival_of_push (walk : List String) (operation : Operation) {packet : Packet}
    (h : fifoEvent c name walk operation = .push packet) : operation.arrival name = some packet := by
  unfold fifoEvent at h
  split at h
  · rename_i other found
    rw [found, BoundedFifo.Event.push.inj h]
  · split at h <;> cases h

variable {view}

theorem queueAt_isNone_of_absent (h : name ∉ view.streams) : view.queueAt name = none := by
  rw [queueAt, (not_mem_iff _ _).mp h, Option.bind_none]

theorem ignores_dropped (view : ClientView) (active : Option (ExtTreeSet String)) :
    (⟨view.mStreamOptions, view.streams.map (fun _ stream => stream.unsubscribe), active, none,
      false⟩ : ClientView).Ignores name := by
  refine ⟨?_, by simp [Awaits]⟩
  rw [queueAt, ExtTreeMap.getElem?_map]
  cases view.streams[name]? <;> rfl

theorem Serves.grow {next : ClientView} (served : view.Serves name) (f : StreamView → StreamView)
    (streams : next.streams[name]? = view.streams[name]?.map f)
    (same : ∀ stream : StreamView, stream.queue.isSome → f stream = stream)
    (awaits : view.Awaits name → next.Awaits name) :
    next.Serves name ∧ next.queueAt name = view.queueAt name := by
  rcases served with there | ⟨absent, waiting⟩
  · cases hs : view.streams[name]? with
    | none => rw [queueAt, hs] at there; cases there
    | some stream =>
        rw [queueAt, hs] at there
        rw [hs, Option.map_some, same stream there] at streams
        rw [Serves, queueAt, queueAt, streams, hs]
        exact ⟨.inl there, rfl⟩
  · rw [(not_mem_iff _ _).mp absent, Option.map_none] at streams
    refine ⟨.inr ⟨(not_mem_iff _ _).mpr streams, awaits waiting⟩, ?_⟩
    rw [queueAt_isNone_of_absent name absent, queueAt, streams, Option.bind_none]

theorem subscribe_same (stream : StreamView) (h : stream.queue.isSome) :
    stream.subscribe false = stream := stream.subscribe_of_queue h false

/-- While the client is served, a call acts on its queue as an event on a bounded fifo. -/
theorem Serves.step (h : view.Coherent) (served : view.Serves name) (walk : List String)
    (operation : Operation) (stays : ¬operation.Closes c) :
    (view.step c walk operation).Serves name ∧
      ((view.step c walk operation).queueAt name).getD [] =
        (BoundedFifo.Ledger.step view.mStreamOptions.mMaximumQueueSize
          ⟨[], (view.queueAt name).getD []⟩ (fifoEvent c name walk operation)).queue := by
  have idle : ∀ {next : ClientView}, next.Serves name ∧ next.queueAt name = view.queueAt name →
      next.Serves name ∧ (next.queueAt name).getD [] = ((view.queueAt name).getD []).drop 0 :=
    fun kept => ⟨kept.1, by rw [kept.2, List.drop_zero]⟩
  cases operation with
  | enqueuePacket packet =>
      simp only [ClientView.step, fifoEvent, Operation.arrival]
      by_cases accepted : packet.Accepted
      · rw [if_pos accepted]
        by_cases here : packet.toName = name
        · rw [if_pos ⟨accepted, here⟩, Serves, queueAt_enqueue name h, if_pos here]
          simp only [BoundedFifo.Ledger.step]
          rcases served with there | ⟨absent, waiting⟩
          · have present : name ∈ view.streams := by
              by_contra absent
              rw [queueAt_isNone_of_absent name absent] at there
              cases there
            obtain ⟨queue, hq⟩ := Option.isSome_iff_exists.mp there
            simp only [if_pos present, hq, Option.map_some, Option.getD_some]
            exact ⟨.inl rfl, trivial⟩
          · rw [if_neg absent, if_pos waiting, queueAt_isNone_of_absent name absent]
            exact ⟨.inl rfl, by simp [BoundedFifo.pushDropping]⟩
        · rw [if_neg (fun both => here both.2)]
          refine idle ⟨?_, by rw [queueAt_enqueue name h, if_neg here]⟩
          rw [Serves, queueAt_enqueue name h, if_neg here, mem_enqueue_streams name packet h,
            or_iff_right here, awaits_enqueue name packet h here]
          exact served
      · rw [if_neg accepted, if_neg (fun both => accepted both.1)]
        exact idle ⟨served, rfl⟩
  | subscribe d identifiers =>
      simp only [ClientView.step]
      split
      · refine idle (served.grow name
          (fun stream => if name ∈ SubscriptionManager.distinctNames identifiers
            then stream.subscribe false else stream) ?_ ?_ ?_)
        · rw [subscribeToNames_streams _ _ _ (SubscriptionManager.distinctNames_nodup identifiers)]
          split
          · rfl
          · exact Option.map_id'.symm
        · intro stream there
          rw [subscribe_same stream there, ite_self]
        · rintro (all | member)
          · exact .inl ((subscribeToNames_pendingAll _ _).trans all)
          · exact .inr ((mem_subscribeToNames_pending _ _ _).mpr (.inl member))
      · exact idle ⟨served, rfl⟩
  | subscribeToAll d =>
      simp only [ClientView.step]
      split
      · cases all : view.pendingAll with
        | true =>
            rw [show view.subscribeToAll = view by rw [subscribeToAll, all]; rfl]
            exact idle ⟨served, rfl⟩
        | false =>
            refine idle (served.grow name (·.subscribe false) ?_ subscribe_same
              (fun _ => .inl view.subscribeToAll_pendingAll))
            rw [subscribeToAll_streams, all]
            rfl
      · exact idle ⟨served, rfl⟩
  | getPackets d =>
      simp only [ClientView.step, fifoEvent, Operation.arrival]
      split
      · obtain ⟨-, pending, pendingAll⟩ := view.pullAll_requests walk
        have queue := view.queueAt_pullAll name walk
        refine ⟨?_, ?_⟩
        · rcases served with there | ⟨absent, waiting⟩
          · exact .inl (by rw [queue, Option.isSome_map]; exact there)
          · refine .inr ⟨?_, by rw [Awaits, pending, pendingAll]; exact waiting⟩
            rwa [mem_pullAll_streams]
        · rw [queue]
          cases view.queueAt name with
          | none => exact List.drop_nil.symm
          | some queue => rfl
      · exact idle ⟨served, rfl⟩
  | unsubscribeFromAll d =>
      have other : ¬d = c := stays
      simp only [ClientView.step, if_neg other]
      exact idle ⟨served, rfl⟩
  | unsubscribeAll => exact absurd trivial stays
  | getNumberOfSubscribers => exact idle ⟨served, rfl⟩

theorem Ignores.step (h : view.Coherent) (ignored : view.Ignores name) (walk : List String)
    (operation : Operation) (quiet : ¬operation.Opens c name) :
    (view.step c walk operation).Ignores name := by
  obtain ⟨queue, request⟩ := ignored
  cases operation with
  | enqueuePacket packet =>
      simp only [ClientView.step]
      split
      · by_cases here : packet.toName = name
        · refine ⟨?_, fun made => request ((h.receives packet).of_awaits made)⟩
          rw [queueAt_enqueue name h, if_pos here, queue, if_neg request, Option.map_none, ite_self]
        · rw [Ignores, queueAt_enqueue name h, if_neg here, awaits_enqueue name packet h here]
          exact ⟨queue, request⟩
      · exact ⟨queue, request⟩
  | subscribe d identifiers =>
      simp only [ClientView.step]
      split
      · rename_i own
        have other : name ∉ SubscriptionManager.distinctNames identifiers :=
          fun member => quiet ⟨own, (SubscriptionManager.mem_distinctNames _ _).mp member⟩
        refine ⟨?_, ?_⟩
        · rw [queueAt, subscribeToNames_streams _ _ _
            (SubscriptionManager.distinctNames_nodup identifiers), if_neg other]
          exact queue
        · rintro (all | member)
          · exact request (.inl ((subscribeToNames_pendingAll _ _).symm.trans all))
          · rcases (mem_subscribeToNames_pending _ _ _).mp member with old | new
            · exact request (.inr old)
            · exact other new.1
      · exact ⟨queue, request⟩
  | subscribeToAll d =>
      have other : ¬d = c := quiet
      simp only [ClientView.step, if_neg other]
      exact ⟨queue, request⟩
  | getPackets d =>
      simp only [ClientView.step]
      split
      · obtain ⟨-, pending, pendingAll⟩ := view.pullAll_requests walk
        refine ⟨?_, by rw [Awaits, pending, pendingAll]; exact request⟩
        rw [queueAt_pullAll, queue, Option.map_none]
      · exact ⟨queue, request⟩
  | unsubscribeFromAll d =>
      simp only [ClientView.step]
      split
      · exact ignores_dropped name view _
      · exact ⟨queue, request⟩
  | unsubscribeAll => exact ignores_dropped name view _
  | getNumberOfSubscribers => exact ⟨queue, request⟩

theorem ignores_of_closes (walk : List String) (operation : Operation)
    (closes : operation.Closes c) : (view.step c walk operation).Ignores name := by
  cases operation with
  | unsubscribeFromAll d =>
      have own : d = c := closes
      simp only [ClientView.step, if_pos own]
      exact ignores_dropped name view _
  | unsubscribeAll => exact ignores_dropped name view _
  | enqueuePacket | subscribe | subscribeToAll | getPackets | getNumberOfSubscribers =>
      exact absurd closes id

/-- An opening call on an ignored stream serves the client from an empty queue. -/
theorem Ignores.opened (ignored : view.Ignores name) (walk : List String)
    (operation : Operation) (opens : operation.Opens c name) :
    (view.step c walk operation).Serves name ∧
      ((view.step c walk operation).queueAt name).getD [] = [] := by
  obtain ⟨queue, request⟩ := ignored
  have added : ∀ {next : ClientView},
      next.streams[name]? = view.streams[name]?.map (·.subscribe false) →
      (name ∉ view.streams → next.Awaits name) →
      next.Serves name ∧ (next.queueAt name).getD [] = [] := by
    intro next streams waits
    cases hs : view.streams[name]? with
    | none =>
        rw [hs, Option.map_none] at streams
        have absent : name ∉ next.streams := (not_mem_iff _ _).mpr streams
        refine ⟨.inr ⟨absent, waits ((not_mem_iff _ _).mpr hs)⟩, ?_⟩
        rw [queueAt_isNone_of_absent name absent, Option.getD_none]
    | some stream =>
        rw [queueAt, hs, Option.bind_some] at queue
        rw [hs, Option.map_some] at streams
        rw [Serves, queueAt, streams, Option.bind_some, StreamView.subscribe, queue]
        exact ⟨.inl rfl, rfl⟩
  cases operation with
  | subscribe d identifiers =>
      have own : d = c := opens.1
      have member := (SubscriptionManager.mem_distinctNames identifiers name).mpr opens.2
      simp only [ClientView.step, if_pos own]
      refine added ?_ (fun absent => .inr ((mem_subscribeToNames_pending _ _ _).mpr
        (.inr ⟨member, absent⟩)))
      rw [subscribeToNames_streams _ _ _ (SubscriptionManager.distinctNames_nodup identifiers),
        if_pos member]
  | subscribeToAll d =>
      have own : d = c := opens
      have first : view.pendingAll = false :=
        Bool.eq_false_iff.mpr (fun all => request (.inl all))
      simp only [ClientView.step, if_pos own]
      refine added ?_ (fun _ => .inl view.subscribeToAll_pendingAll)
      rw [subscribeToAll_streams, first]
      rfl
  | enqueuePacket | getPackets | unsubscribeFromAll | unsubscribeAll | getNumberOfSubscribers =>
      exact absurd opens id

theorem pull_fst (other : String) :
    (view.pull other).1 = ((view.queueAt other).getD []).head? := by
  rw [pull, queueAt]
  cases view.streams[other]? <;> rfl

theorem queueAt_pull (other : String) :
    ((view.pull other).2.queueAt name).getD [] =
      if other = name then ((view.queueAt name).getD []).tail
      else (view.queueAt name).getD [] := by
  rw [queueAt, queueAt, pull_streams]
  split
  · cases view.streams[name]? with
    | none => rfl
    | some stream =>
        simp only [Option.map_some, Option.bind_some, StreamView.pop]
        cases stream.queue <;> rfl
  · rfl

theorem name_of_mem_queueAt (h : view.Coherent) {packet : Packet}
    (member : packet ∈ (view.queueAt name).getD []) : packet.toName = name := by
  rw [queueAt] at member
  cases hs : view.streams[name]? with
  | none => rw [hs] at member; cases member
  | some stream =>
      rw [hs, Option.bind_some] at member
      cases hq : stream.queue with
      | none => rw [hq] at member; cases member
      | some queue =>
          rw [hq] at member
          exact (h.streams name stream hs).named queue hq packet member

/-- The packets named after a stream that one walk returns are the front of its queue. -/
theorem filter_pullAll (h : view.Coherent) (names : List String) :
    (view.pullAll names).1.filter (fun packet => packet.toName = name) =
      ((view.queueAt name).getD []).take (names.count name) := by
  induction names generalizing view with
  | nil => rfl
  | cons other names ih =>
      have next : (view.pull other).2.Coherent := h.pullAll [other]
      have front : (view.pull other).1.toList.filter (fun packet => packet.toName = name) =
          if other = name then ((view.queueAt name).getD []).take 1 else [] := by
        rw [pull_fst]
        cases hq : (view.queueAt other).getD [] with
        | nil =>
            split
            · rename_i here; rw [← here, hq]; rfl
            · rfl
        | cons first rest =>
            have first_name := name_of_mem_queueAt other h (hq ▸ List.mem_cons_self)
            simp only [List.head?_cons, Option.toList_some, List.filter_cons, List.filter_nil,
              first_name, decide_eq_true_eq]
            split
            · rename_i here; rw [← here, hq]; rfl
            · rfl
      rw [pullAll, List.filter_append, ih next, queueAt_pull, front, List.count_cons]
      by_cases here : other = name
      · simp only [here, if_true, beq_self_eq_true]
        cases (view.queueAt name).getD [] with
        | nil => simp
        | cons first rest => simp [List.take_succ_cons]
      · simp only [here, if_false, beq_iff_eq, List.nil_append, add_zero]

end ClientView

section Account
variable (c : ContextAddress) (name : String)

def fifoEvents : SubscriptionManager → List Operation → List (BoundedFifo.Event Packet)
  | _, [] => []
  | manager, operation :: operations =>
      ClientView.fifoEvent c name manager.walk operation ::
        fifoEvents (managerMachine.step manager operation).1 operations

theorem fifoEvents_concat (manager : SubscriptionManager) (operations : List Operation)
    (operation : Operation) :
    fifoEvents c name manager (operations ++ [operation]) =
      fifoEvents c name manager operations ++
        [ClientView.fifoEvent c name (managerMachine.run manager operations).walk operation] := by
  induction operations generalizing manager with
  | nil => rfl
  | cons first operations ih => exact congrArg (_ :: ·) (ih _)

@[simp] theorem length_fifoEvents (manager : SubscriptionManager) (operations : List Operation) :
    (fifoEvents c name manager operations).length = operations.length := by
  induction operations generalizing manager with
  | nil => rfl
  | cons first operations ih => exact congrArg Nat.succ (ih _)

theorem fifoEvents_take (manager : SubscriptionManager) (operations : List Operation) (k : ℕ) :
    (fifoEvents c name manager operations).take k = fifoEvents c name manager (operations.take k) := by
  induction operations generalizing manager k with
  | nil => rw [List.take_nil]; exact List.take_nil
  | cons first operations ih =>
      cases k with
      | zero => rfl
      | succ k => exact congrArg (_ :: ·) (ih _ k)

theorem fifoEvents_getElem? (manager : SubscriptionManager) (operations : List Operation) (k : ℕ) :
    (fifoEvents c name manager operations)[k]? = operations[k]?.map
      (ClientView.fifoEvent c name (managerMachine.run manager (operations.take k)).walk) := by
  induction operations generalizing manager k with
  | nil => rfl
  | cons first operations ih =>
      cases k with
      | zero => rfl
      | succ k => exact ih _ k

theorem delivered_concat (manager : SubscriptionManager) (operations : List Operation)
    (operation : Operation) :
    delivered c name manager (operations ++ [operation]) =
      delivered c name manager operations ++ received c name
        (operation, (managerMachine.step (managerMachine.run manager operations) operation).2) := by
  rw [delivered, managerMachine.trace_concat,
    List.zip_append (managerMachine.length_trace manager operations).symm, List.flatMap_append]
  simp [delivered]

theorem received_step {manager : SubscriptionManager} (h : manager.Coherent)
    (operation : Operation) :
    received c name (operation, (managerMachine.step manager operation).2) =
      (BoundedFifo.Ledger.step manager.mStreamOptions.mMaximumQueueSize
        ⟨[], queueIn c name manager⟩
        (ClientView.fifoEvent c name manager.walk operation)).delivered := by
  cases operation with
  | getPackets d =>
      simp only [managerMachine, received, ClientView.fifoEvent, Operation.arrival,
        BoundedFifo.Ledger.step, List.nil_append]
      split
      · rename_i own
        rw [own, manager.getPackets_fst, ClientView.filter_pullAll name (h c), queueIn_eq_queueAt]
      · rw [List.take_zero]
  | enqueuePacket packet =>
      simp only [received, ClientView.fifoEvent, Operation.arrival]
      split <;> rfl
  | subscribe | subscribeToAll | unsubscribeFromAll | unsubscribeAll | getNumberOfSubscribers =>
      rfl

theorem pushes_fifoEvents (manager : SubscriptionManager) (operations : List Operation) :
    BoundedFifo.pushes (BoundedFifo.tagged (fifoEvents c name manager operations)) =
      arrivals name operations := by
  induction operations using List.reverseRecOn with
  | nil => rfl
  | append_singleton operations operation ih =>
      rw [fifoEvents_concat, BoundedFifo.tagged_concat, BoundedFifo.pushes_concat, ih,
        length_fifoEvents, arrivals, arrivals, List.zipIdx_append, List.filterMap_append]
      congr 1
      simp only [List.zipIdx_singleton, zero_add, List.filterMap_cons, List.filterMap_nil]
      unfold ClientView.fifoEvent
      cases operation.arrival name with
      | some packet => rfl
      | none => cases operation <;> rfl

/-- The run of an interest period is the run of a bounded fifo. -/
theorem run_fifoEvents {manager : SubscriptionManager} (h : manager.Coherent)
    (served : (manager.view c).Serves name) (empty : queueIn c name manager = [])
    (operations : List Operation) (stays : ∀ operation ∈ operations, ¬operation.Closes c) :
    ((managerMachine.run manager operations).view c).Serves name ∧
      (managerMachine.run manager operations).mStreamOptions = manager.mStreamOptions ∧
      BoundedFifo.run manager.mStreamOptions.mMaximumQueueSize
          (fifoEvents c name manager operations) =
        ⟨delivered c name manager operations,
          queueIn c name (managerMachine.run manager operations)⟩ := by
  induction operations using List.reverseRecOn with
  | nil => exact ⟨served, rfl, by rw [managerMachine.run_nil, empty]; rfl⟩
  | append_singleton operations operation ih =>
      obtain ⟨serving, options, account⟩ :=
        ih (fun o member => stays o (List.mem_append_left _ member))
      have stay := stays operation (List.mem_append_right _ (List.mem_singleton.mpr rfl))
      have coherent := managerMachine.run_invariant SubscriptionManager.Coherent coherent_step h
        operations
      obtain ⟨serves, queue⟩ := serving.step c name (coherent c)
        (managerMachine.run manager operations).walk operation stay
      have bound : ((managerMachine.run manager operations).view c).mStreamOptions =
          manager.mStreamOptions := options
      have after : queueIn c name (managerMachine.run manager (operations ++ [operation])) =
          (BoundedFifo.Ledger.step manager.mStreamOptions.mMaximumQueueSize
            ⟨[], queueIn c name (managerMachine.run manager operations)⟩
            (ClientView.fifoEvent c name (managerMachine.run manager operations).walk
              operation)).queue := by
        rw [queueIn_eq_queueAt, queueIn_eq_queueAt, managerMachine.run_concat,
          view_managerMachine_step, queue, bound]
      refine ⟨?_, ?_, ?_⟩
      · rw [managerMachine.run_concat, view_managerMachine_step]
        exact serves
      · rw [managerMachine.run_concat, options_step, options]
      · rw [fifoEvents_concat, BoundedFifo.run, List.foldl_append, ← BoundedFifo.run, account,
          delivered_concat, received_step c name coherent, options, after]
        cases ClientView.fifoEvent c name (managerMachine.run manager operations).walk operation with
        | push packet => simp only [List.foldl_cons, List.foldl_nil, BoundedFifo.Ledger.step,
            List.append_nil]
        | pull n => simp only [List.foldl_cons, List.foldl_nil, BoundedFifo.Ledger.step,
            List.nil_append]

theorem ignores_of_not_interested (options : StreamOptions) (operations : List Operation)
    (outside : ¬Interested c name operations) :
    ((managerMachine.run (.fresh options) operations).view c).Ignores name := by
  induction operations using List.reverseRecOn with
  | nil =>
      refine ⟨?_, ?_⟩
      · rw [ClientView.queueAt, managerMachine.run_nil, SubscriptionManager.view_streams_getElem?]
        simp [SubscriptionManager.fresh]
      · simp [ClientView.Awaits, SubscriptionManager.view, SubscriptionManager.fresh]
  | append_singleton operations operation ih =>
      have coherent := run_coherent options operations c
      rw [managerMachine.run_concat, view_managerMachine_step]
      by_cases closes : operation.Closes c
      · exact ClientView.ignores_of_closes c name _ operation closes
      · have quiet : ¬operation.Opens c name := fun opens =>
          outside ⟨operations, operation, [], rfl, opens, by simp⟩
        refine ClientView.Ignores.step c name coherent (ih ?_) _ operation quiet
        rintro ⟨earlier, opening, later, rfl, opens, stays⟩
        refine outside ⟨earlier, opening, later ++ [operation], by simp, opens, ?_⟩
        intro o member
        rcases List.mem_append.mp member with old | last
        · exact stays o old
        · rw [List.mem_singleton.mp last]; exact closes

end Account

/-- Every interest period of a run from a fresh manager obeys the delivery law. -/
theorem interest_period_delivery (options : StreamOptions) (c : ContextAddress) (name : String)
    (before period : List Operation) (opening : Operation)
    (outside : ¬Interested c name before) (opens : opening.Opens c name)
    (stays : ∀ operation ∈ period, ¬operation.Closes c) :
    ∃ kept : ℕ → List (ℕ × Packet), ∀ k,
      DeliveryLaw options c name (managerMachine.run (.fresh options) (before ++ [opening]))
        period kept k := by
  have idle := ignores_of_not_interested c name options before outside
  have coherent := run_coherent options (before ++ [opening])
  have sameOptions : (managerMachine.run (.fresh options) (before ++ [opening])).mStreamOptions =
      options := run_options options (before ++ [opening])
  generalize hm : managerMachine.run (.fresh options) (before ++ [opening]) = manager at *
  have started : (manager.view c).Serves name ∧ queueIn c name manager = [] := by
    rw [← hm, queueIn_eq_queueAt, managerMachine.run_concat, view_managerMachine_step]
    exact idle.opened c name _ opening opens
  have account : ∀ k, _ := fun k => run_fifoEvents c name coherent started.1 started.2
    (period.take k) (fun o member => stays o (List.mem_of_mem_take member))
  rw [sameOptions] at account
  let events := fifoEvents c name manager period
  have ledger : ∀ k, (BoundedFifo.ledger options.mMaximumQueueSize (events.take k)).map Prod.snd =
      ⟨delivered c name manager (period.take k),
        queueIn c name (managerMachine.run manager (period.take k))⟩ := by
    intro k
    rw [BoundedFifo.ledger_map_snd, fifoEvents_take, (account k).2.2]
  have content : ∀ k, (BoundedFifo.ledger options.mMaximumQueueSize (events.take k)).delivered.map
      Prod.snd = delivered c name manager (period.take k) :=
    fun k => congrArg BoundedFifo.Ledger.delivered (ledger k)
  have queued : ∀ k, (BoundedFifo.ledger options.mMaximumQueueSize (events.take k)).queue.map
      Prod.snd = queueIn c name (managerMachine.run manager (period.take k)) :=
    fun k => congrArg BoundedFifo.Ledger.queue (ledger k)
  have pushed : ∀ k, BoundedFifo.pushes (BoundedFifo.tagged (events.take k)) =
      arrivals name (period.take k) := by
    intro k
    rw [fifoEvents_take, pushes_fifoEvents]
  refine ⟨fun k => (BoundedFifo.ledger options.mMaximumQueueSize (events.take k)).kept, fun k => ?_⟩
  constructor
  · rw [← pushed]
    exact BoundedFifo.kept_sublist _ _
  · rw [BoundedFifo.Ledger.kept, List.map_append, content, queued]
  · rw [← queued, List.length_map]
    exact BoundedFifo.length_queue_le options.positive _
  · intro entry member lost
    rw [← pushed] at member
    obtain ⟨m, packet, inside, event, full, front⟩ :=
      BoundedFifo.lost_at_full options.positive _ member lost
    rw [List.length_take, length_fifoEvents] at inside
    have hm : m < k ∧ m < period.length := by omega
    have earlier : (events.take k).take m = events.take m := by
      rw [List.take_take, min_eq_left hm.1.le]
    rw [earlier] at full front
    have before : entry ∈ (BoundedFifo.ledger options.mMaximumQueueSize (events.take m)).queue :=
      List.mem_of_mem_head? front
    have position := BoundedFifo.mem_pushes_lt _ ((BoundedFifo.kept_sublist _ _).mem
      (List.mem_append_right _ before))
    rw [List.length_take, length_fifoEvents] at position
    rw [List.getElem?_take_of_lt hm.1, fifoEvents_getElem?, Option.map_eq_some_iff] at event
    obtain ⟨operation, there, push⟩ := event
    refine ⟨m, operation, hm.1, by omega, there,
      Option.isSome_iff_exists.mpr ⟨packet, ClientView.arrival_of_push c name _ _ push⟩, ?_, ?_⟩
    · rw [← queued, List.length_map, full]
    · rw [← content, List.length_map, BoundedFifo.Ledger.kept, List.getElem?_append_right le_rfl,
        Nat.sub_self, ← List.head?_eq_getElem?, front]

/-- A client of all streams whose queue of one packet overflows once. -/
theorem interest_period_delivery_overflow :
    ∃ kept : ℕ → List (ℕ × Packet), ∀ k, DeliveryLaw ⟨1, by decide⟩ 7 "UU.CWU.HHZ.01"
      (managerMachine.run (.fresh ⟨1, by decide⟩) ([.getNumberOfSubscribers] ++ [.subscribeToAll 7]))
      [.enqueuePacket (channelPacket "HHZ" 0 100), .enqueuePacket (channelPacket "HHZ" 1 100),
        .getPackets 7] kept k :=
  interest_period_delivery ⟨1, by decide⟩ 7 "UU.CWU.HHZ.01" [.getNumberOfSubscribers] _
    (.subscribeToAll 7)
    (by
      rintro ⟨earlier, opening, later, split, opens, -⟩
      have member : opening ∈ [Operation.getNumberOfSubscribers] := by rw [split]; simp
      rw [List.mem_singleton.mp member] at opens
      exact opens)
    rfl
    (by simp [Operation.Closes])

end UDataPacketService
