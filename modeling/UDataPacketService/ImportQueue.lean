import UDataPacketService.BoundedFifo
import UDataPacketService.PacketConverter

/-! The import queue between the callback that receives packets and the thread that
propagates them. The callback looks at the size, pops and pushes in separate steps,
and the thread may pop between any two of them. -/
namespace UDataPacketService

inductive AddPacketCallback where
  | returned
  | testsSize (newPacket : Packet)
  | pops (newPacket : Packet)
  | pushes (newPacket : Packet)
  deriving DecidableEq

def AddPacketCallback.newPacket : AddPacketCallback → Option Packet
  | .returned => none
  | .testsSize newPacket | .pops newPacket | .pushes newPacket => some newPacket

/-- The fields of `Process` that the callback and the thread share. -/
structure ImportProcess where
  mMaximumImportQueueSize : ℕ
  mImportQueue : BoundedQueue Packet
  addPacketCallback : AddPacketCallback := .returned

def ImportProcess.start (maximumImportQueueSize : ℕ) : ImportProcess where
  mMaximumImportQueueSize := maximumImportQueueSize
  mImportQueue := { capacity := maximumImportQueueSize }

/-- A packet reaches the callback, or one of the two threads takes a step. -/
inductive ImportEvent where
  | receive (inputPacket : ImportAPI.Packet)
  | addPacketCallback
  | propagateImportPackets

inductive ImportOutcome where
  | nothing
  | rejected (what : String)
  | converted (packet : Packet)
  | evicted (packet : Packet)
  | pushed (packet : Packet)
  | notPushed (packet : Packet)
  | propagated (packet : Packet)
  deriving DecidableEq

namespace ImportProcess

/-- `addPacketCallback` up to the loop. The callback runs once at a time. -/
def receive (process : ImportProcess) (inputPacket : ImportAPI.Packet) :
    ImportProcess × ImportOutcome :=
  match process.addPacketCallback with
  | .returned =>
      match inputPacket.convert with
      | .ok newPacket =>
          ({ process with addPacketCallback := .testsSize newPacket }, .converted newPacket)
      | .error what => (process, .rejected what)
  | _ => (process, .nothing)

/-- A step of `addPacketCallback` in the loop or behind it. -/
def stepCallback (process : ImportProcess) : ImportProcess × ImportOutcome :=
  match process.addPacketCallback with
  | .returned => (process, .nothing)
  | .testsSize newPacket =>
      if process.mMaximumImportQueueSize ≤ process.mImportQueue.items.length then
        ({ process with addPacketCallback := .pops newPacket }, .nothing)
      else ({ process with addPacketCallback := .pushes newPacket }, .nothing)
  | .pops newPacket =>
      match process.mImportQueue.tryPop with
      | none => ({ process with addPacketCallback := .pushes newPacket }, .nothing)
      | some (workSpace, mImportQueue) =>
          ({ process with mImportQueue := mImportQueue, addPacketCallback := .testsSize newPacket },
            .evicted workSpace)
  | .pushes newPacket =>
      match process.mImportQueue.tryPush newPacket with
      | none => ({ process with addPacketCallback := .returned }, .notPushed newPacket)
      | some mImportQueue =>
          ({ process with mImportQueue := mImportQueue, addPacketCallback := .returned },
            .pushed newPacket)

/-- The `try_pop` of `propagateImportPackets`; between two of them the thread only
hands the packet on or sleeps. -/
def propagateImportPackets (process : ImportProcess) : ImportProcess × ImportOutcome :=
  match process.mImportQueue.tryPop with
  | none => (process, .nothing)
  | some (packet, mImportQueue) => ({ process with mImportQueue := mImportQueue }, .propagated packet)

end ImportProcess

def importMachine : Machine ImportProcess ImportEvent ImportOutcome where
  step process
    | .receive inputPacket => process.receive inputPacket
    | .addPacketCallback => process.stepCallback
    | .propagateImportPackets => process.propagateImportPackets

def convertedPackets (outcomes : List ImportOutcome) : List Packet :=
  outcomes.filterMap (fun | .converted packet => some packet | _ => none)

def propagatedPackets (outcomes : List ImportOutcome) : List Packet :=
  outcomes.filterMap (fun | .propagated packet => some packet | _ => none)

def poppedPackets (outcomes : List ImportOutcome) : List Packet :=
  outcomes.filterMap (fun | .propagated packet | .evicted packet => some packet | _ => none)

theorem propagated_sublist_popped (outcomes : List ImportOutcome) :
    (propagatedPackets outcomes).Sublist (poppedPackets outcomes) := by
  induction outcomes with
  | nil => exact List.Sublist.refl _
  | cons outcome outcomes ih =>
      cases outcome with
      | propagated packet => exact ih.cons_cons packet
      | evicted packet => exact ih.cons packet
      | nothing | rejected | converted | pushed | notPushed => exact ih

/-- The account of the converted packets while the two threads run. -/
structure ImportAccount (capacity : ℕ) (outcomes : List ImportOutcome) (process : ImportProcess) :
    Prop where
  maximum : process.mMaximumImportQueueSize = capacity
  queue : process.mImportQueue.capacity = capacity
  packets : poppedPackets outcomes ++ process.mImportQueue.items ++
    process.addPacketCallback.newPacket.toList = convertedPackets outcomes
  room : ∀ newPacket, process.addPacketCallback = .pushes newPacket →
    process.mImportQueue.items.length < capacity
  pushed : ∀ packet, .notPushed packet ∉ outcomes

namespace ImportAccount
variable {capacity : ℕ} {outcomes : List ImportOutcome} {process : ImportProcess}

theorem start (capacity : ℕ) : ImportAccount capacity [] (.start capacity) where
  maximum := rfl
  queue := rfl
  packets := rfl
  room := by
    intro newPacket pushes
    cases pushes
  pushed := by
    intro packet member
    cases member

theorem concat (h : ImportAccount capacity outcomes process) {next : ImportProcess}
    {outcome : ImportOutcome} (maximum : next.mMaximumImportQueueSize = capacity)
    (queue : next.mImportQueue.capacity = capacity)
    (packets : ∀ earlier converted : List Packet,
      earlier ++ process.mImportQueue.items ++ process.addPacketCallback.newPacket.toList =
        converted →
      earlier ++ poppedPackets [outcome] ++ next.mImportQueue.items ++
        next.addPacketCallback.newPacket.toList = converted ++ convertedPackets [outcome])
    (room : ∀ newPacket, next.addPacketCallback = .pushes newPacket →
      next.mImportQueue.items.length < capacity)
    (pushed : ∀ packet, outcome ≠ .notPushed packet) :
    ImportAccount capacity (outcomes ++ [outcome]) next where
  maximum := maximum
  queue := queue
  packets := by
    rw [poppedPackets, convertedPackets, List.filterMap_append, List.filterMap_append]
    exact packets _ _ h.packets
  room := room
  pushed := by
    intro packet member
    rcases List.mem_append.mp member with earlier | last
    · exact h.pushed packet earlier
    · exact pushed packet (List.mem_singleton.mp last).symm

theorem receive (h : ImportAccount capacity outcomes process) (inputPacket : ImportAPI.Packet) :
    ImportAccount capacity (outcomes ++ [(process.receive inputPacket).2])
      (process.receive inputPacket).1 := by
  have still : ∀ outcome : ImportOutcome, poppedPackets [outcome] = [] →
      convertedPackets [outcome] = [] → (∀ packet, outcome ≠ .notPushed packet) →
      ImportAccount capacity (outcomes ++ [outcome]) process := by
    intro outcome popped converted pushed
    refine h.concat h.maximum h.queue (fun earlier all same => ?_) h.room pushed
    rw [popped, converted, List.append_nil, List.append_nil, same]
  unfold ImportProcess.receive
  split
  · rename_i returned
    split
    · rename_i newPacket _
      refine h.concat h.maximum h.queue (fun earlier all same => ?_) (fun _ same => by cases same)
        (fun _ same => by cases same)
      rw [returned] at same
      rw [← same]
      simp [poppedPackets, convertedPackets, AddPacketCallback.newPacket]
    · exact still _ rfl rfl (fun _ same => by cases same)
  · exact still _ rfl rfl (fun _ same => by cases same)

theorem propagateImportPackets (h : ImportAccount capacity outcomes process) :
    ImportAccount capacity (outcomes ++ [process.propagateImportPackets.2])
      process.propagateImportPackets.1 := by
  unfold ImportProcess.propagateImportPackets
  split
  · refine h.concat h.maximum h.queue (fun earlier all same => ?_) h.room (fun _ same => by cases same)
    rw [← same]
    simp [poppedPackets, convertedPackets]
  · rename_i packet mImportQueue popped
    obtain ⟨items, same⟩ := BoundedQueue.tryPop_eq_some popped
    refine h.concat h.maximum (same.trans h.queue) (fun earlier all account => ?_) ?_ (fun _ same => by cases same)
    · rw [← account, items]
      simp [poppedPackets, convertedPackets]
    · intro newPacket pushes
      have room := h.room newPacket pushes
      rw [items, List.length_cons] at room
      exact lt_trans (Nat.lt_succ_self _) room

theorem stepCallback (positive : 0 < capacity) (h : ImportAccount capacity outcomes process) :
    ImportAccount capacity (outcomes ++ [process.stepCallback.2]) process.stepCallback.1 := by
  unfold ImportProcess.stepCallback
  split
  · refine h.concat h.maximum h.queue (fun earlier all same => ?_) h.room (fun _ same => by cases same)
    rw [← same]
    simp [poppedPackets, convertedPackets]
  · rename_i newPacket testing
    split
    · refine h.concat h.maximum h.queue (fun earlier all same => ?_) (fun _ same => by cases same)
        (fun _ same => by cases same)
      rw [← same, testing]
      simp [poppedPackets, convertedPackets, AddPacketCallback.newPacket]
    · -- the loop is left because the size was below the maximum
      rename_i room
      refine h.concat h.maximum h.queue (fun earlier all same => ?_) (fun _ _ => ?_) (fun _ same => by cases same)
      · rw [← same, testing]
        simp [poppedPackets, convertedPackets, AddPacketCallback.newPacket]
      · rw [← h.maximum]
        exact not_le.mp room
  · rename_i newPacket popping
    split
    · -- the loop is left because the thread has drained the queue
      rename_i empty
      refine h.concat h.maximum h.queue (fun earlier all same => ?_) (fun _ _ => ?_) (fun _ same => by cases same)
      · rw [← same, popping]
        simp [poppedPackets, convertedPackets, AddPacketCallback.newPacket]
      · simp only [BoundedQueue.tryPop_eq_none empty, List.length_nil]
        exact positive
    · rename_i workSpace mImportQueue popped
      obtain ⟨items, kept⟩ := BoundedQueue.tryPop_eq_some popped
      refine h.concat h.maximum (kept.trans h.queue) (fun earlier all same => ?_) (fun _ same => by cases same)
        (fun _ same => by cases same)
      rw [← same, popping, items]
      simp [poppedPackets, convertedPackets, AddPacketCallback.newPacket]
  · rename_i newPacket pushing
    obtain ⟨next, taken, kept, items⟩ := BoundedQueue.tryPush_of_room
      (by rw [h.queue]; exact h.room newPacket pushing) newPacket
    rw [taken]
    refine h.concat h.maximum (kept.trans h.queue) (fun earlier all same => ?_) (fun _ same => by cases same)
        (fun _ same => by cases same)
    rw [← same, pushing, items]
    simp [poppedPackets, convertedPackets, AddPacketCallback.newPacket]

theorem step (positive : 0 < capacity) (h : ImportAccount capacity outcomes process)
    (event : ImportEvent) :
    ImportAccount capacity (outcomes ++ [(importMachine.step process event).2])
      (importMachine.step process event).1 := by
  cases event with
  | receive inputPacket => exact h.receive inputPacket
  | addPacketCallback => exact h.stepCallback positive
  | propagateImportPackets => exact h.propagateImportPackets

end ImportAccount

/-- The callback only evicts the oldest packet of the queue. -/
theorem head_of_evicted {process : ImportProcess} {event : ImportEvent} {packet : Packet}
    (evicted : (importMachine.step process event).2 = .evicted packet) :
    process.mImportQueue.items.head? = some packet := by
  cases event with
  | receive inputPacket =>
      simp only [importMachine, ImportProcess.receive] at evicted
      split at evicted
      · split at evicted <;> cases evicted
      · cases evicted
  | propagateImportPackets =>
      simp only [importMachine, ImportProcess.propagateImportPackets] at evicted
      split at evicted <;> cases evicted
  | addPacketCallback =>
      simp only [importMachine, ImportProcess.stepCallback] at evicted
      split at evicted
      · cases evicted
      · split at evicted <;> cases evicted
      · split at evicted
        · cases evicted
        · rename_i workSpace mImportQueue popped
          obtain rfl := ImportOutcome.evicted.inj evicted
          rw [(BoundedQueue.tryPop_eq_some popped).1, List.head?_cons]
      · split at evicted <;> cases evicted

/-- A packet that the converter rejects changes nothing. -/
theorem receive_of_rejected (process : ImportProcess) {inputPacket : ImportAPI.Packet}
    {what : String} (rejected : inputPacket.convert = .error what) :
    (process.receive inputPacket).1 = process := by
  unfold ImportProcess.receive
  split
  · rw [rejected]
  · rfl

/-- In every interleaving nothing fails to be pushed, the queue keeps its bound, the
thread receives the converted packets in order, and a converted packet is popped, queued
or in the hands of the callback; what the callback pops was the oldest in the queue, and
a rejected packet makes it pop nothing. -/
theorem import_queue_keeps_order {capacity : ℕ} (positive : 0 < capacity)
    (events : List ImportEvent) :
    let process := importMachine.run (.start capacity) events
    let outcomes := importMachine.trace (.start capacity) events
    (∀ packet, .notPushed packet ∉ outcomes) ∧
      process.mImportQueue.items.length ≤ capacity ∧
      (propagatedPackets outcomes).Sublist (convertedPackets outcomes) ∧
      convertedPackets outcomes = poppedPackets outcomes ++ process.mImportQueue.items ++
        process.addPacketCallback.newPacket.toList ∧
      (∀ i packet, outcomes[i]? = some (.evicted packet) →
        (importMachine.run (.start capacity) (events.take i)).mImportQueue.items.head? =
          some packet) ∧
      ∀ inputPacket what, ImportAPI.Packet.convert inputPacket = .error what →
        (importMachine.step process (.receive inputPacket)).1 = process := by
  intro process outcomes
  have account : ImportAccount capacity outcomes process :=
    importMachine.history_invariant (ImportAccount capacity)
      (fun _ _ event h => h.step positive event) (.start capacity) events
  refine ⟨account.pushed, ?_, ?_, account.packets.symm, ?_,
    fun inputPacket what rejected => receive_of_rejected process rejected⟩
  · exact account.queue ▸ process.mImportQueue.bounded
  · rw [← account.packets, List.append_assoc]
    exact (propagated_sublist_popped outcomes).trans (List.sublist_append_left _ _)
  · intro i packet evicted
    rw [Machine.trace_getElem?] at evicted
    obtain ⟨event, -, popped⟩ := Option.map_eq_some_iff.mp evicted
    exact head_of_evicted popped

/-- The steps that the callback has still to take, at most, with so many packets queued. -/
def AddPacketCallback.rank (queued : ℕ) : AddPacketCallback → ℕ
  | .returned => 0
  | .pushes _ => 1
  | .pops _ => 2 * queued + 2
  | .testsSize _ => 2 * queued + 3

def ImportProcess.callbackRank (process : ImportProcess) : ℕ :=
  process.addPacketCallback.rank process.mImportQueue.items.length

theorem callbackRank_stepCallback {process : ImportProcess}
    (running : process.addPacketCallback ≠ .returned) :
    process.stepCallback.1.callbackRank < process.callbackRank := by
  unfold ImportProcess.stepCallback ImportProcess.callbackRank
  cases place : process.addPacketCallback with
  | returned => exact absurd place running
  | testsSize newPacket =>
      simp only
      split
      · simp only [AddPacketCallback.rank]
        omega
      · simp only [AddPacketCallback.rank]
        omega
  | pops newPacket =>
      simp only
      split
      · simp only [AddPacketCallback.rank]
        omega
      · rename_i workSpace mImportQueue popped
        have items := congrArg List.length (BoundedQueue.tryPop_eq_some popped).1
        rw [List.length_cons] at items
        simp only [AddPacketCallback.rank]
        omega
  | pushes newPacket =>
      simp only
      split <;> exact Nat.zero_lt_one

theorem callbackRank_propagateImportPackets (process : ImportProcess) :
    process.propagateImportPackets.1.callbackRank ≤ process.callbackRank := by
  unfold ImportProcess.propagateImportPackets
  split
  · exact le_rfl
  · rename_i packet mImportQueue popped
    have items := congrArg List.length (BoundedQueue.tryPop_eq_some popped).1
    rw [List.length_cons] at items
    unfold ImportProcess.callbackRank
    cases process.addPacketCallback <;> simp only [AddPacketCallback.rank] <;> omega

theorem receive_of_running {process : ImportProcess} (running : process.addPacketCallback ≠ .returned)
    (inputPacket : ImportAPI.Packet) : (process.receive inputPacket).1 = process := by
  unfold ImportProcess.receive
  split
  · rename_i returned
    exact absurd returned running
  · rfl

def ImportEvent.isCallback : ImportEvent → Bool
  | .addPacketCallback => true
  | .receive _ | .propagateImportPackets => false

/-- Whatever the thread does meanwhile, the callback returns within three steps and two
for every packet that the queue held when it was called. -/
theorem callback_returns (process : ImportProcess) (events : List ImportEvent)
    (steps : 2 * process.mImportQueue.items.length + 3 ≤ events.countP ImportEvent.isCallback) :
    ∃ n ≤ events.length,
      (importMachine.run process (events.take n)).addPacketCallback = .returned := by
  have enough : process.callbackRank ≤ events.countP ImportEvent.isCallback := by
    refine le_trans ?_ steps
    unfold ImportProcess.callbackRank
    cases process.addPacketCallback <;> simp only [AddPacketCallback.rank] <;> omega
  clear steps
  induction events generalizing process with
  | nil =>
      refine ⟨0, le_rfl, ?_⟩
      have none : process.callbackRank = 0 := Nat.le_zero.mp enough
      unfold ImportProcess.callbackRank at none
      change process.addPacketCallback = .returned
      cases place : process.addPacketCallback with
      | returned => rfl
      | testsSize | pops | pushes =>
          simp only [place, AddPacketCallback.rank] at none
          omega
  | cons event events ih =>
      by_cases running : process.addPacketCallback = .returned
      · exact ⟨0, Nat.zero_le _, running⟩
      · have less : (importMachine.step process event).1.callbackRank ≤
            events.countP ImportEvent.isCallback := by
          rw [List.countP_cons] at enough
          cases event with
          | receive inputPacket =>
              simp only [importMachine, receive_of_running running]
              simpa [ImportEvent.isCallback] using enough
          | addPacketCallback =>
              have falls := callbackRank_stepCallback running
              simp only [ImportEvent.isCallback, if_true] at enough
              exact Nat.le_of_lt_succ (lt_of_lt_of_le falls enough)
          | propagateImportPackets =>
              refine (callbackRank_propagateImportPackets process).trans ?_
              simpa [ImportEvent.isCallback] using enough
        obtain ⟨n, within, returned⟩ := ih (importMachine.step process event).1 less
        exact ⟨n + 1, Nat.succ_le_succ within, returned⟩

theorem callback_returns_once :
    let process := importMachine.run (.start 1) [.receive importedPacket]
    let events := [.addPacketCallback, .propagateImportPackets, .addPacketCallback,
      .addPacketCallback]
    ∃ n ≤ events.length, (importMachine.run process (events.take n)).addPacketCallback = .returned :=
  callback_returns _ [.addPacketCallback, .propagateImportPackets, .addPacketCallback,
    .addPacketCallback] (by decide +kernel)

/-- The callback finds the queue full, and the thread drains it before the callback pops. -/
def drainedQueue : List ImportEvent :=
  [.receive importedPacket, .addPacketCallback, .addPacketCallback, .receive importedPacket,
    .addPacketCallback, .propagateImportPackets, .addPacketCallback, .addPacketCallback]

theorem import_queue_keeps_order_when_drained :
    (propagatedPackets (importMachine.trace (.start 1) drainedQueue)).Sublist
      (convertedPackets (importMachine.trace (.start 1) drainedQueue)) :=
  (import_queue_keeps_order Nat.one_pos drainedQueue).2.2.1

end UDataPacketService
