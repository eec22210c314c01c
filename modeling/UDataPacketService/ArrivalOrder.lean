import UDataPacketService.DetectorMemory

/-! Packets of one stream that have nothing to do with each other, in any order of
arrival. Each of them finds its place in the buffer, but the call that puts a header
before the front does not allow the packet. -/
namespace UDataPacketService
open OrderedContainers IntervalChain

/-- The headers have no common time and are not duplicates of each other. -/
structure DataPacketHeader.Unrelated (a b : DataPacketHeader) : Prop where
  apart : Apart DataPacketHeader.startTime DataPacketHeader.endTime a b
  unequal : a.equals b = .ok false

instance (a b : DataPacketHeader) : Decidable (a.Unrelated b) :=
  decidable_of_iff ((a.endTime < b.startTime ∨ b.endTime < a.startTime) ∧ a.equals b = .ok false)
    ⟨fun h => ⟨h.1, h.2⟩, fun h => ⟨h.apart, h.unequal⟩⟩

namespace HeaderBuffer
variable {buffer : CircularBuffer DataPacketHeader} {header : DataPacketHeader}

/-- A header that is unrelated to all others is put into the buffer, and allowed
unless it lies before the front. -/
theorem allowIn_unrelated (order : InOrder buffer) (room : ¬buffer.full = true)
    (unrelated : ∀ streamHeader ∈ buffer.items, streamHeader.Unrelated header) :
    (DuplicatePacketDetectorImpl.allowIn buffer header).1 =
        .returned (decide (¬header.endTime < buffer.front.startTime)) ∧
      (DuplicatePacketDetectorImpl.allowIn buffer header).2.items.Perm (header :: buffer.items) ∧
      (DuplicatePacketDetectorImpl.allowIn buffer header).2.capacity = buffer.capacity := by
  have unknown : header.find buffer.items = .ok false :=
    (header.find_eq_false_iff buffer.items).mpr (fun s member => (unrelated s member).unequal)
  have pushed : (buffer.pushBack header).items.Perm (header :: buffer.items) := by
    rw [buffer.pushBack_of_not_full header room]
    exact List.perm_append_singleton header buffer.items
  have decision := allowIn_decision buffer header
  generalize DuplicatePacketDetectorImpl.allowIn buffer header = result at decision
  cases decision with
  | threw what thrown => cases unknown.symm.trans thrown
  | duplicate found => cases unknown.symm.trans found
  | append _ later =>
      have after := (front_before order later).hi_lt DataPacketHeader.proper
      have inside : ¬header.endTime < buffer.front.startTime :=
        not_lt_of_ge (buffer.front.ordered.trans after.le)
      exact ⟨by rw [decide_eq_true inside], pushed, rfl⟩
  | expired _ _ full => exact absurd full room
  | older _ older _ =>
      refine ⟨by rw [decide_eq_false (not_not_intro older)], ?_, rfl⟩
      exact .of_eq (buffer.pushFront_of_not_full header room)
  | slip _ slips =>
      obtain ⟨streamHeader, member, touching⟩ := List.any_eq_true.mp slips
      have apart := (unrelated streamHeader member).apart.symm
      exact absurd ((header.slips_iff streamHeader).mp touching)
        (apart.not_touches DataPacketHeader.proper)
  | fill _ inside _ =>
      exact ⟨by rw [decide_eq_true inside], ((buffer.pushBack header).perm_sort _).trans pushed, rfl⟩

theorem not_before_front_iff (unrelated : buffer.front.Unrelated header) :
    ¬header.endTime < buffer.front.startTime ↔ buffer.front.startTime ≤ header.startTime := by
  constructor
  · intro inside
    have after := unrelated.apart.resolve_right inside
    exact (after.lo_lt DataPacketHeader.proper).le
  · intro first before
    exact absurd (header.ordered.trans_lt before) (not_lt_of_ge first)

theorem front_startTime_eq {next : CircularBuffer DataPacketHeader} (order : InOrder buffer)
    (nextOrder : InOrder next) (items : next.items.Perm (header :: buffer.items))
    (first : buffer.front.startTime ≤ header.startTime) :
    next.front.startTime = buffer.front.startTime := by
  apply le_antisymm
  · have member := items.mem_iff.mpr (List.mem_cons_of_mem header buffer.front_mem)
    exact nextOrder.head_le DataPacketHeader.proper next.nonempty member
  · rcases List.mem_cons.mp (items.mem_iff.mp next.front_mem) with new | old
    · rw [new]
      exact first
    · exact order.head_le DataPacketHeader.proper buffer.nonempty old

end HeaderBuffer

open HeaderBuffer

/-- With room for all of them, unrelated packets are all allowed exactly when none
of them begins before the front. -/
theorem DuplicatePacketDetector.trace_allowed_iff {detector : DuplicatePacketDetector}
    {name : String} {buffer : CircularBuffer DataPacketHeader} {packets : List Packet}
    {headers : List DataPacketHeader}
    (known : detector.pImpl.mCircularBuffers[name]? = some buffer) (order : HeaderBuffer.InOrder buffer)
    (room : buffer.items.length + headers.length ≤ buffer.capacity)
    (headers_eq : packets.map DataPacketHeader.ofPacket = headers.map .ok)
    (stream : ∀ header ∈ headers, header.name = name)
    (unrelated : ∀ streamHeader ∈ buffer.items, ∀ header ∈ headers, streamHeader.Unrelated header)
    (pairwise : headers.Pairwise DataPacketHeader.Unrelated) :
    (∀ result ∈ detectorMachine.trace detector packets, result = .returned true) ↔
      ∀ header ∈ headers, buffer.front.startTime ≤ header.startTime := by
  induction headers generalizing detector buffer packets with
  | nil =>
      rw [List.map_nil, List.map_eq_nil_iff] at headers_eq
      subst headers_eq
      simp
  | cons header headers ih =>
      obtain ⟨packet, packets, rfl, read, headers_eq⟩ := List.map_eq_cons_iff.mp headers_eq
      obtain ⟨fresh, pairwise⟩ := List.pairwise_cons.mp pairwise
      have same := stream header List.mem_cons_self
      have notFull : ¬buffer.full = true := by
        rw [buffer.full_iff]
        rw [List.length_cons] at room
        omega
      have own : ∀ streamHeader ∈ buffer.items, streamHeader.Unrelated header :=
        fun streamHeader member => unrelated streamHeader member header List.mem_cons_self
      obtain ⟨result, items, capacity⟩ := allowIn_unrelated order notFull own
      have recognized : header.Recognized buffer := by
        rintro ⟨streamHeader, member, covers⟩
        exact absurd covers ((own streamHeader member).apart.symm.not_covers
          DataPacketHeader.proper)
      have nextOrder := inOrder_allowIn order recognized
      have step := detector.allow_of_known read (same.symm ▸ known)
      rw [Machine.trace_cons, List.forall_mem_cons, List.forall_mem_cons]
      have output : (detectorMachine.step detector packet).2 = .returned true ↔
          buffer.front.startTime ≤ header.startTime := by
        rw [← not_before_front_iff (own buffer.front buffer.front_mem)]
        change (detector.allow packet).1 = _ ↔ _
        simp only [step, result, AllowResult.returned.injEq, decide_eq_true_eq]
      rw [output]
      refine and_congr_right (fun first => ?_)
      rw [← front_startTime_eq order nextOrder items first]
      apply ih
      · change (detector.allow packet).2.pImpl.mCircularBuffers[name]? = _
        rw [step]
        exact getElem?_insert _ _ _ _ |>.trans (if_pos same)
      · exact nextOrder
      · rw [items.length_eq, capacity, List.length_cons]
        rw [List.length_cons] at room
        omega
      · exact headers_eq
      · exact fun later member => stream later (List.mem_cons_of_mem header member)
      · intro streamHeader member later there
        rcases List.mem_cons.mp (items.mem_iff.mp member) with new | old
        · rw [new]
          exact fresh later there
        · exact unrelated streamHeader old later (List.mem_cons_of_mem header there)
      · exact pairwise

namespace DuplicatePacketDetector

theorem eq_of_sized {size : Int} {options : DuplicatePacketDetectorOptions}
    {detector : DuplicatePacketDetector}
    (sized : DuplicatePacketDetectorOptions.setCircularBufferSize size = .ok options)
    (constructed : construct options = .ok detector) :
    ∃ positive, detector = ⟨{ mCircularBufferSize := size, sized := positive }⟩ := by
  unfold DuplicatePacketDetectorOptions.setCircularBufferSize at sized
  split at sized
  · cases sized
  · rename_i positive
    rw [← Except.ok.inj sized] at constructed
    have some : size > 0 := lt_of_not_ge positive
    have unset : ¬(-1 : Int) > 0 := by decide
    simp only [construct, DuplicatePacketDetectorOptions.getCircularBufferDuration, if_neg unset,
      DuplicatePacketDetectorOptions.getCircularBufferSize, if_pos some, dif_neg positive,
      Except.ok.injEq] at constructed
    exact ⟨some, constructed.symm⟩

theorem allow_first {size : Int} (positive : 0 < size) {packet : Packet}
    {header : DataPacketHeader} (h : DataPacketHeader.ofPacket packet = .ok header) :
    (⟨{ mCircularBufferSize := size, sized := positive }⟩ : DuplicatePacketDetector).allow packet =
      (.returned true, ⟨{
        mCircularBuffers := Std.ExtTreeMap.insert ∅ header.name
          (.start size.toNat (Int.pos_iff_toNat_pos.mp positive) header)
        mCircularBufferSize := size
        sized := positive }⟩) := by
  simp only [allow, h, DuplicatePacketDetectorImpl.allow, Std.ExtTreeMap.getElem?_empty]
  rfl

end DuplicatePacketDetector

/-- For at most as many unrelated packets of one stream as the buffers hold, every
packet is allowed exactly when the earliest one arrives first. -/
theorem arrival_order_allowed_iff (size : Int) (options : DuplicatePacketDetectorOptions)
    {detector : DuplicatePacketDetector} (packets : List Packet) (headers : List DataPacketHeader)
    (sized : DuplicatePacketDetectorOptions.setCircularBufferSize size = .ok options)
    (constructed : DuplicatePacketDetector.construct options = .ok detector)
    (read : packets.map DataPacketHeader.ofPacket = headers.map .ok)
    (fits : (packets.length : Int) ≤ size)
    (stream : ∀ a ∈ headers, ∀ b ∈ headers, a.name = b.name)
    (unrelated : headers.Pairwise DataPacketHeader.Unrelated) :
    (∀ result ∈ detectorMachine.trace detector packets, result = .returned true) ↔
      ∀ first ∈ headers.head?, ∀ header ∈ headers, first.startTime ≤ header.startTime := by
  obtain ⟨positive, rfl⟩ := DuplicatePacketDetector.eq_of_sized sized constructed
  cases headers with
  | nil =>
      rw [List.map_nil, List.map_eq_nil_iff] at read
      subst read
      simp
  | cons header headers =>
      obtain ⟨packet, packets, rfl, read, headers_eq⟩ := List.map_eq_cons_iff.mp read
      obtain ⟨fresh, pairwise⟩ := List.pairwise_cons.mp unrelated
      have opened := DuplicatePacketDetector.allow_first positive read
      have output : (detectorMachine.step ⟨{ mCircularBufferSize := size, sized := positive }⟩
          packet).2 = .returned true := congrArg Prod.fst opened
      have known : (detectorMachine.step ⟨{ mCircularBufferSize := size, sized := positive }⟩
          packet).1.pImpl.mCircularBuffers[header.name]? =
            some (.start size.toNat (Int.pos_iff_toNat_pos.mp positive) header) := by
        change (DuplicatePacketDetector.allow _ packet).2.pImpl.mCircularBuffers[header.name]? = _
        rw [opened]
        exact getElem?_insert _ _ _ _ |>.trans (if_pos rfl)
      have count := congrArg List.length headers_eq
      rw [List.length_map, List.length_map] at count
      rw [List.length_cons] at fits
      rw [Machine.trace_cons, List.forall_mem_cons, and_iff_right output]
      refine (DuplicatePacketDetector.trace_allowed_iff known (List.pairwise_singleton _ header)
        ?_ headers_eq ?_ ?_ pairwise).trans ?_
      · change 1 + headers.length ≤ size.toNat
        omega
      · exact fun later member => stream later (List.mem_cons_of_mem header member) header
          List.mem_cons_self
      · intro streamHeader member later there
        rw [List.mem_singleton.mp member]
        exact fresh later there
      · simp [CircularBuffer.front, CircularBuffer.start]

/-- Three packets in a row of which the last two change places. -/
theorem arrival_order_allowed_first_in_place :
    (detectorMachine.trace ⟨{ mCircularBufferSize := 3 }⟩
      [channelPacket "HHZ" 0 100, channelPacket "HHZ" 2 100, channelPacket "HHZ" 1 100]).all
        (fun result => result = .returned true) = true := by
  have allowed := arrival_order_allowed_iff 3 ⟨-1, 3⟩
    [channelPacket "HHZ" 0 100, channelPacket "HHZ" 2 100, channelPacket "HHZ" 1 100] [
    ⟨"UU.CWU.HHZ.01", 0, 990000, 100, 100, by decide, by decide⟩,
    ⟨"UU.CWU.HHZ.01", 2000000, 2990000, 100, 100, by decide, by decide⟩,
    ⟨"UU.CWU.HHZ.01", 1000000, 1990000, 100, 100, by decide, by decide⟩]
    rfl rfl (by decide +kernel) (by decide) (by decide) (by decide)
  rw [List.all_eq_true]
  exact fun result member => decide_eq_true (allowed.mpr (by decide) result member)

/-- The earlier of two packets is refused when it arrives last. -/
theorem earlier_packet_refused :
    let packets := [channelPacket "HHZ" 1 100, channelPacket "HHZ" 0 100]
    let headers : List DataPacketHeader := [
      ⟨"UU.CWU.HHZ.01", 1000000, 1990000, 100, 100, by decide, by decide⟩,
      ⟨"UU.CWU.HHZ.01", 0, 990000, 100, 100, by decide, by decide⟩]
    packets.map DataPacketHeader.ofPacket = headers.map .ok ∧
      headers.Pairwise DataPacketHeader.Unrelated ∧
      (DuplicatePacketDetector.construct ⟨-1, 2⟩).map
          (fun detector => detectorMachine.trace detector packets) =
        .ok [.returned true, .returned false] := by
  decide +kernel

end UDataPacketService
