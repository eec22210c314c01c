import UDataPacketService.DetectorModel

/-! What a stream's buffer remembers. While no packet is filled in around a
remembered interval, a buffer is a chain of intervals, and a header it once held
is held still or lies before the front of a full buffer. -/
namespace UDataPacketService
open Std (ExtTreeMap)
open OrderedContainers IntervalChain

namespace DataPacketHeader

/-- The constructor reads the name, the two times, the rounded rate and the count. -/
theorem ofPacket_eq_ok_iff (packet : Packet) (header : DataPacketHeader) :
    ofPacket packet = .ok header ↔
      packet.toName = header.name ∧ packet.startTime.toMicroseconds = header.startTime ∧
        getEndTimeInMicroSeconds packet = .ok header.endTime ∧
        stdRound packet.samplingRate = header.samplingRate ∧
        packet.numberOfSamples.toInt32.toInt = header.nSamples := by
  have positive := header.positive
  unfold ofPacket
  split
  · rename_i what thrown
    simp [thrown]
  · rename_i endTime computed
    simp only
    split
    · rename_i none
      constructor
      · intro h
        cases h
      · rintro ⟨-, -, -, -, count⟩
        omega
    · obtain ⟨name, startTime, last, samplingRate, nSamples, _, _⟩ := header
      simp [computed]

theorem ofPacket_congr {p q : Packet} {header : DataPacketHeader} (h : ofPacket p = .ok header)
    (name : p.toName = q.toName)
    (start : p.startTime.toMicroseconds = q.startTime.toMicroseconds)
    (rate : p.samplingRate = q.samplingRate) (count : p.numberOfSamples = q.numberOfSamples) :
    ofPacket q = .ok header := by
  rw [ofPacket_eq_ok_iff] at h ⊢
  have endTime : getEndTimeInMicroSeconds p = getEndTimeInMicroSeconds q := by
    simp only [getEndTimeInMicroSeconds, start, rate, count]
  rwa [← name, ← start, ← rate, ← count, ← endTime]

theorem proper (header : DataPacketHeader) : header.startTime ≤ header.endTime := header.ordered

theorem slips_iff (header streamHeader : DataPacketHeader) :
    header.slips streamHeader = true ↔ Touches startTime endTime header streamHeader := by
  simp only [slips, Touches, ge_iff_le, Bool.or_eq_true, Bool.and_eq_true, decide_eq_true_eq]

theorem equals_self (header : DataPacketHeader) : header.equals header ≠ .ok false := by
  simp only [equals, ne_eq, not_true_eq_false, if_false, sub_self, abs_zero]
  split_ifs <;> simp

theorem find_eq_false_iff (header : DataPacketHeader) (items : List DataPacketHeader) :
    header.find items = .ok false ↔ ∀ streamHeader ∈ items, streamHeader.equals header = .ok false := by
  induction items with
  | nil => simp [find]
  | cons first rest ih =>
      rw [List.forall_mem_cons, ← ih, find]
      split
      · rename_i what thrown
        rw [thrown]
        simp
      · rename_i same
        rw [same]
        simp
      · rename_i other
        rw [other]
        simp

/-- A header that is held is found, or a comparison throws on the way. -/
theorem find_of_mem {header : DataPacketHeader} {items : List DataPacketHeader}
    (member : header ∈ items) : header.find items ≠ .ok false := by
  rw [ne_eq, find_eq_false_iff]
  exact fun absent => header.equals_self (absent header member)

end DataPacketHeader

/-- A remembered interval lies strictly inside the header. -/
def DataPacketHeader.Encloses (header : DataPacketHeader)
    (buffer : CircularBuffer DataPacketHeader) : Prop :=
  ∃ streamHeader ∈ buffer.items, Covers DataPacketHeader.startTime DataPacketHeader.endTime
    header streamHeader

instance (header : DataPacketHeader) (buffer : CircularBuffer DataPacketHeader) :
    Decidable (header.Encloses buffer) :=
  inferInstanceAs (Decidable (∃ streamHeader ∈ buffer.items,
    header.startTime < streamHeader.startTime ∧ streamHeader.endTime < header.endTime))

/-- A header around a remembered interval is recognized by one of the other tests. -/
def DataPacketHeader.Recognized (header : DataPacketHeader)
    (buffer : CircularBuffer DataPacketHeader) : Prop :=
  header.Encloses buffer →
    header.find buffer.items ≠ .ok false ∨ buffer.items.any header.slips = true

instance (header : DataPacketHeader) (buffer : CircularBuffer DataPacketHeader) :
    Decidable (header.Recognized buffer) :=
  inferInstanceAs (Decidable (_ → _))

inductive Decision (buffer : CircularBuffer DataPacketHeader) (header : DataPacketHeader) :
    AllowResult × CircularBuffer DataPacketHeader → Prop where
  | threw (what : String) (thrown : header.find buffer.items = .error what) :
      Decision buffer header (.threw what, buffer)
  | duplicate (found : header.find buffer.items = .ok true) :
      Decision buffer header (.returned false, buffer)
  | append (unknown : header.find buffer.items = .ok false)
      (later : buffer.back.endTime < header.startTime) :
      Decision buffer header (.returned true, buffer.pushBack header)
  | expired (unknown : header.find buffer.items = .ok false)
      (older : header.endTime < buffer.front.startTime) (full : buffer.full = true) :
      Decision buffer header (.returned false, buffer)
  | older (unknown : header.find buffer.items = .ok false)
      (older : header.endTime < buffer.front.startTime) (room : ¬buffer.full = true) :
      Decision buffer header (.returned false, buffer.pushFront header)
  | slip (unknown : header.find buffer.items = .ok false)
      (slips : buffer.items.any header.slips = true) :
      Decision buffer header (.returned false, buffer)
  | fill (unknown : header.find buffer.items = .ok false)
      (inside : ¬header.endTime < buffer.front.startTime)
      (untouched : ¬buffer.items.any header.slips = true) :
      Decision buffer header
        (.returned true, (buffer.pushBack header).sort DataPacketHeader.StartsFirst)

theorem allowIn_decision (buffer : CircularBuffer DataPacketHeader) (header : DataPacketHeader) :
    Decision buffer header (DuplicatePacketDetectorImpl.allowIn buffer header) := by
  unfold DuplicatePacketDetectorImpl.allowIn
  split
  · rename_i what thrown
    exact .threw what thrown
  · rename_i found
    exact .duplicate found
  · rename_i unknown
    split
    · rename_i later
      exact .append unknown later
    · split
      · rename_i older
        split
        · rename_i full
          exact .expired unknown older full
        · rename_i room
          exact .older unknown older room
      · rename_i inside
        split
        · rename_i slips
          exact .slip unknown slips
        · rename_i untouched
          exact .fill unknown inside untouched

namespace HeaderBuffer

abbrev InOrder (buffer : CircularBuffer DataPacketHeader) : Prop :=
  Chain DataPacketHeader.startTime DataPacketHeader.endTime buffer.items

/-- The header is held, or it lies before the front of a full buffer. -/
def Keeps (buffer : CircularBuffer DataPacketHeader) (header : DataPacketHeader) : Prop :=
  header ∈ buffer.items ∨ (buffer.full = true ∧ header.endTime < buffer.front.startTime)

variable {buffer : CircularBuffer DataPacketHeader} {header : DataPacketHeader}

theorem apart_of_untouched (untouched : ¬buffer.items.any header.slips = true)
    (recognized : header.Recognized buffer) (unknown : header.find buffer.items = .ok false) :
    ∀ streamHeader ∈ buffer.items,
      Apart DataPacketHeader.startTime DataPacketHeader.endTime header streamHeader := by
  intro streamHeader member
  have clear : ¬Touches DataPacketHeader.startTime DataPacketHeader.endTime header streamHeader := by
    intro touches
    exact untouched (List.any_eq_true.mpr ⟨streamHeader, member,
      (header.slips_iff streamHeader).mpr touches⟩)
  refine (apart_or_covers clear).resolve_right (fun covers => ?_)
  rcases recognized ⟨streamHeader, member, covers⟩ with found | slips
  · exact found unknown
  · exact untouched slips

/-- What an accepted header has to do with the front: it lies after it. -/
theorem front_before (order : InOrder buffer)
    (later : buffer.back.endTime < header.startTime) :
    Before DataPacketHeader.startTime DataPacketHeader.endTime buffer.front header :=
  order.before_of_last DataPacketHeader.proper buffer.nonempty later _ buffer.front_mem

theorem inOrder_append (order : InOrder buffer)
    (later : buffer.back.endTime < header.startTime) : InOrder (buffer.pushBack header) := by
  obtain ⟨kept, sublist, items⟩ := buffer.pushBack_eq header
  have after := order.before_of_last DataPacketHeader.proper buffer.nonempty later
  rw [InOrder, items]
  exact Chain.concat (order.sublist sublist) (fun b member => after b (sublist.subset member))

theorem inOrder_older (order : InOrder buffer) (room : ¬buffer.full = true)
    (older : header.endTime < buffer.front.startTime) : InOrder (buffer.pushFront header) := by
  rw [InOrder, buffer.pushFront_of_not_full header room]
  exact List.pairwise_cons.mpr
    ⟨order.before_of_head DataPacketHeader.proper buffer.nonempty older, order⟩

theorem inOrder_fill (order : InOrder buffer)
    (apart : ∀ streamHeader ∈ buffer.items,
      Apart DataPacketHeader.startTime DataPacketHeader.endTime header streamHeader) :
    InOrder ((buffer.pushBack header).sort DataPacketHeader.StartsFirst) := by
  obtain ⟨kept, sublist, items⟩ := buffer.pushBack_eq header
  apply chain_insertionSort DataPacketHeader.proper
  rw [items]
  refine List.pairwise_append.mpr ⟨order.apart.sublist sublist, List.pairwise_singleton _ header, ?_⟩
  intro streamHeader member last same
  rw [List.mem_singleton.mp same]
  exact (apart streamHeader (sublist.subset member)).symm

theorem inOrder_allowIn (order : InOrder buffer) (recognized : header.Recognized buffer) :
    InOrder (DuplicatePacketDetectorImpl.allowIn buffer header).2 := by
  have decision := allowIn_decision buffer header
  generalize DuplicatePacketDetectorImpl.allowIn buffer header = result at decision
  cases decision with
  | threw | duplicate | expired | slip => exact order
  | append unknown later => exact inOrder_append order later
  | older unknown older room => exact inOrder_older order room older
  | fill unknown inside untouched =>
      exact inOrder_fill order (apart_of_untouched untouched recognized unknown)

/-- Making room for a header that lies after the front forgets nothing. -/
theorem keeps_pushBack {old : DataPacketHeader} {next : CircularBuffer DataPacketHeader}
    (order : InOrder buffer)
    (after : Before DataPacketHeader.startTime DataPacketHeader.endTime buffer.front header)
    (capacity : next.capacity = buffer.capacity)
    (items : next.items.Perm (buffer.pushBack header).items) (keeps : Keeps buffer old) :
    Keeps next old := by
  have full : buffer.full = true → next.full = true := by
    intro h
    have count := (buffer.pushBack header).full_iff.mp (buffer.full_pushBack header h)
    rw [next.full_iff, items.length_eq, count, capacity]
    rfl
  -- everything in the new buffer lies after what an overflow dropped
  have beyond : buffer.full = true → Before DataPacketHeader.startTime DataPacketHeader.endTime
      buffer.front next.front := by
    intro h
    have member := items.mem_iff.mp next.front_mem
    rw [buffer.pushBack_of_full header h] at member
    rcases List.mem_append.mp member with tail | last
    · have chain : Chain DataPacketHeader.startTime DataPacketHeader.endTime
          (buffer.front :: buffer.items.tail) := buffer.front_cons_tail ▸ order
      exact List.rel_of_pairwise_cons chain tail
    · rw [List.mem_singleton.mp last]
      exact after
  rcases keeps with held | ⟨h, gone⟩
  · rcases buffer.mem_pushBack_or_front header held with still | ⟨h, rfl⟩
    · exact .inl (items.mem_iff.mpr still)
    · exact .inr ⟨full h, beyond h⟩
  · exact .inr ⟨full h, gone.trans ((beyond h).lo_lt DataPacketHeader.proper)⟩

theorem keeps_allowIn {old : DataPacketHeader} (order : InOrder buffer)
    (recognized : header.Recognized buffer) (keeps : Keeps buffer old) :
    Keeps (DuplicatePacketDetectorImpl.allowIn buffer header).2 old := by
  have decision := allowIn_decision buffer header
  generalize DuplicatePacketDetectorImpl.allowIn buffer header = result at decision
  cases decision with
  | threw | duplicate | expired | slip => exact keeps
  | append unknown later =>
      exact keeps_pushBack order (front_before order later) rfl (List.Perm.refl _) keeps
  | older unknown older room =>
      have held := keeps.resolve_right (fun gone => room gone.1)
      refine .inl ?_
      change old ∈ (buffer.pushFront header).items
      rw [buffer.pushFront_of_not_full header room]
      exact List.mem_cons_of_mem _ held
  | fill unknown inside untouched =>
      have apart := apart_of_untouched untouched recognized unknown
      have after := (apart buffer.front buffer.front_mem).resolve_left inside
      exact keeps_pushBack order after rfl ((buffer.pushBack header).perm_sort _) keeps

theorem mem_of_allowed
    (allowed : (DuplicatePacketDetectorImpl.allowIn buffer header).1 = .returned true) :
    header ∈ (DuplicatePacketDetectorImpl.allowIn buffer header).2.items := by
  have decision := allowIn_decision buffer header
  generalize DuplicatePacketDetectorImpl.allowIn buffer header = result at decision allowed
  cases decision with
  | threw | duplicate | expired | older | slip => cases allowed
  | append unknown later => exact buffer.mem_pushBack_self header
  | fill unknown inside untouched =>
      exact ((buffer.pushBack header).perm_sort _).mem_iff.mpr (buffer.mem_pushBack_self header)

theorem not_allowed_of_keeps (order : InOrder buffer) (keeps : Keeps buffer header) :
    (DuplicatePacketDetectorImpl.allowIn buffer header).1 ≠ .returned true := by
  intro allowed
  have decision := allowIn_decision buffer header
  generalize DuplicatePacketDetectorImpl.allowIn buffer header = result at decision allowed
  have gone (unknown : header.find buffer.items = .ok false) :
      header.endTime < buffer.front.startTime :=
    (keeps.resolve_left (fun held => DataPacketHeader.find_of_mem held unknown)).2
  cases decision with
  | threw | duplicate | expired | older | slip => cases allowed
  | append unknown later =>
      have after := (front_before order later).lo_lt DataPacketHeader.proper
      exact absurd ((gone unknown).trans after) (not_lt_of_ge header.ordered)
  | fill unknown inside untouched => exact inside (gone unknown)

end HeaderBuffer

namespace DuplicatePacketDetector
open HeaderBuffer

def InOrder (detector : DuplicatePacketDetector) : Prop :=
  ∀ (name : String) (buffer : CircularBuffer DataPacketHeader),
    detector.pImpl.mCircularBuffers[name]? = some buffer → HeaderBuffer.InOrder buffer

def Remembers (detector : DuplicatePacketDetector) (header : DataPacketHeader) : Prop :=
  ∃ buffer, detector.pImpl.mCircularBuffers[header.name]? = some buffer ∧ Keeps buffer header

/-- A packet around a remembered interval of its stream is a duplicate of a
remembered packet or touches one. -/
def Admits (detector : DuplicatePacketDetector) (packet : Packet) : Prop :=
  match DataPacketHeader.ofPacket packet with
  | .error _ => True
  | .ok header => ∀ buffer ∈ detector.pImpl.mCircularBuffers[header.name]?, header.Recognized buffer

instance (detector : DuplicatePacketDetector) (packet : Packet) :
    Decidable (detector.Admits packet) := by
  unfold Admits
  split <;> infer_instance

variable {detector : DuplicatePacketDetector} {packet : Packet} {header : DataPacketHeader}

theorem Admits.recognized {buffer : CircularBuffer DataPacketHeader} (admits : detector.Admits packet)
    (h : DataPacketHeader.ofPacket packet = .ok header)
    (known : detector.pImpl.mCircularBuffers[header.name]? = some buffer) :
    header.Recognized buffer := by
  simp only [Admits, h] at admits
  exact admits buffer known

theorem allow_of_known {buffer : CircularBuffer DataPacketHeader}
    (h : DataPacketHeader.ofPacket packet = .ok header)
    (known : detector.pImpl.mCircularBuffers[header.name]? = some buffer) :
    detector.allow packet = ((DuplicatePacketDetectorImpl.allowIn buffer header).1,
      ⟨{ detector.pImpl with
        mCircularBuffers := detector.pImpl.mCircularBuffers.insert header.name
          (DuplicatePacketDetectorImpl.allowIn buffer header).2 }⟩) := by
  simp only [allow, h, DuplicatePacketDetectorImpl.allow, known]

theorem allow_of_new (h : DataPacketHeader.ofPacket packet = .ok header)
    (new : detector.pImpl.mCircularBuffers[header.name]? = none) :
    detector.allow packet = (.undefined, detector) ∨
      ∃ capacity positive, detector.allow packet = (.returned true, ⟨{ detector.pImpl with
        mCircularBuffers := detector.pImpl.mCircularBuffers.insert header.name
          (.start capacity positive header) }⟩) := by
  simp only [allow, h, DuplicatePacketDetectorImpl.allow, new]
  split
  · exact .inl rfl
  · rename_i capacity _
    exact .inr ⟨capacity.1.toNat, Int.pos_iff_toNat_pos.mp capacity.2, rfl⟩

/-- What holds of every buffer holds after a packet if it holds of new buffers and
the packet keeps it in its own. -/
theorem buffers_step (P : String → CircularBuffer DataPacketHeader → Prop)
    (opened : ∀ header capacity positive, P header.name (.start capacity positive header))
    (own : ∀ header buffer, DataPacketHeader.ofPacket packet = .ok header →
      detector.pImpl.mCircularBuffers[header.name]? = some buffer → P header.name buffer →
        P header.name (DuplicatePacketDetectorImpl.allowIn buffer header).2)
    (all : ∀ (name : String) buffer, detector.pImpl.mCircularBuffers[name]? = some buffer →
      P name buffer) :
    ∀ (name : String) buffer,
      (detector.allow packet).2.pImpl.mCircularBuffers[name]? = some buffer → P name buffer := by
  cases h : DataPacketHeader.ofPacket packet with
  | error what => simpa only [allow, h] using all
  | ok header =>
      cases known : detector.pImpl.mCircularBuffers[header.name]? with
      | none =>
          rcases allow_of_new h known with undefined | ⟨capacity, positive, new⟩
          · rw [undefined]
            exact all
          · rw [new]
            intro name buffer hb
            rw [getElem?_insert] at hb
            split at hb
            · rename_i same
              rw [← Option.some.inj hb, ← same]
              exact opened header capacity positive
            · exact all name buffer hb
      | some buffer =>
          rw [allow_of_known h known]
          intro name next hb
          rw [getElem?_insert] at hb
          split at hb
          · rename_i same
            rw [← Option.some.inj hb, ← same]
            exact own header buffer h known (all _ buffer known)
          · exact all name next hb

/-- A buffer is touched only by the packets of its stream. -/
theorem held_step {name : String} {buffer : CircularBuffer DataPacketHeader}
    (held : detector.pImpl.mCircularBuffers[name]? = some buffer) (packet : Packet) :
    ∃ next, (detector.allow packet).2.pImpl.mCircularBuffers[name]? = some next ∧
      (next = buffer ∨ ∃ header, DataPacketHeader.ofPacket packet = .ok header ∧
        header.name = name ∧ next = (DuplicatePacketDetectorImpl.allowIn buffer header).2) := by
  cases h : DataPacketHeader.ofPacket packet with
  | error what =>
      refine ⟨buffer, ?_, .inl rfl⟩
      simpa only [allow, h] using held
  | ok header =>
      cases known : detector.pImpl.mCircularBuffers[header.name]? with
      | none =>
          rcases allow_of_new h known with undefined | ⟨capacity, positive, opened⟩
          · rw [undefined]
            exact ⟨buffer, held, .inl rfl⟩
          · have other : header.name ≠ name := by
              intro same
              rw [same, held] at known
              cases known
            rw [opened]
            exact ⟨buffer, by rw [getElem?_insert_of_ne _ _ other]; exact held, .inl rfl⟩
      | some own =>
          rw [allow_of_known h known]
          by_cases same : header.name = name
          · rw [same, held] at known
            obtain rfl := Option.some.inj known
            exact ⟨_, by rw [getElem?_insert, if_pos same], .inr ⟨header, rfl, same, rfl⟩⟩
          · exact ⟨buffer, by rw [getElem?_insert_of_ne _ _ same]; exact held, .inl rfl⟩

theorem inOrder_step (order : detector.InOrder) (admits : detector.Admits packet) :
    (detectorMachine.step detector packet).1.InOrder :=
  buffers_step (fun _ buffer => HeaderBuffer.InOrder buffer)
    (fun header _ _ => List.pairwise_singleton _ header)
    (fun _ _ h known order => inOrder_allowIn order (admits.recognized h known)) order

theorem remembers_step {old : DataPacketHeader} (order : detector.InOrder)
    (admits : detector.Admits packet) (remembers : detector.Remembers old) :
    (detectorMachine.step detector packet).1.Remembers old := by
  obtain ⟨buffer, hb, keeps⟩ := remembers
  obtain ⟨next, held, rfl | ⟨header, h, same, rfl⟩⟩ := held_step hb packet
  · exact ⟨next, held, keeps⟩
  · refine ⟨_, held, ?_⟩
    exact keeps_allowIn (order _ buffer hb) (admits.recognized h (same ▸ hb)) keeps

theorem remembers_of_allowed (h : DataPacketHeader.ofPacket packet = .ok header)
    (allowed : (detectorMachine.step detector packet).2 = .returned true) :
    (detectorMachine.step detector packet).1.Remembers header := by
  change (detector.allow packet).1 = _ at allowed
  change (detector.allow packet).2.Remembers header
  cases known : detector.pImpl.mCircularBuffers[header.name]? with
  | none =>
      rcases allow_of_new h known with undefined | ⟨capacity, positive, opened⟩
      · rw [undefined] at allowed
        cases allowed
      · rw [opened]
        exact ⟨_, by rw [getElem?_insert, if_pos rfl], .inl (List.mem_singleton_self header)⟩
  | some buffer =>
      rw [allow_of_known h known] at allowed ⊢
      exact ⟨_, by rw [getElem?_insert, if_pos rfl], .inl (mem_of_allowed allowed)⟩

theorem not_allowed_of_remembers (order : detector.InOrder)
    (h : DataPacketHeader.ofPacket packet = .ok header) (remembers : detector.Remembers header) :
    (detectorMachine.step detector packet).2 ≠ .returned true := by
  obtain ⟨buffer, known, keeps⟩ := remembers
  change (detector.allow packet).1 ≠ _
  rw [allow_of_known h known]
  exact not_allowed_of_keeps (order _ buffer known) keeps

theorem construct_new {options : DuplicatePacketDetectorOptions}
    (constructed : construct options = .ok detector) : detector.pImpl.mCircularBuffers = ∅ := by
  unfold construct at constructed
  split at constructed
  · split at constructed
    · cases constructed
    · rw [← Except.ok.inj constructed]
  · split at constructed
    · split at constructed
      · cases constructed
      · rw [← Except.ok.inj constructed]
    · cases constructed

theorem inOrder_construct {options : DuplicatePacketDetectorOptions}
    (constructed : construct options = .ok detector) : detector.InOrder := by
  intro name buffer hb
  rw [construct_new constructed] at hb
  simp at hb

theorem header_of_allowed (allowed : (detectorMachine.step detector packet).2 = .returned true) :
    ∃ header, DataPacketHeader.ofPacket packet = .ok header := by
  change (detector.allow packet).1 = _ at allowed
  cases h : DataPacketHeader.ofPacket packet with
  | error what =>
      simp only [allow, h] at allowed
      cases allowed
  | ok header => exact ⟨header, rfl⟩

end DuplicatePacketDetector

/-- In every run whose packets are recognized when they lie around a remembered
packet, packets with the same header are not allowed twice. -/
theorem no_packet_allowed_twice (options : DuplicatePacketDetectorOptions)
    {detector : DuplicatePacketDetector} {packets : List Packet}
    (constructed : DuplicatePacketDetector.construct options = .ok detector)
    (admitted : detectorMachine.Admissible DuplicatePacketDetector.Admits detector packets)
    {i j : ℕ} (earlier : i < j) {p q : Packet} (first : packets[i]? = some p)
    (second : packets[j]? = some q) (name : p.toName = q.toName)
    (start : p.startTime.toMicroseconds = q.startTime.toMicroseconds)
    (rate : p.samplingRate = q.samplingRate) (count : p.numberOfSamples = q.numberOfSamples) :
    ¬((detectorMachine.trace detector packets)[i]? = some (.returned true) ∧
      (detectorMachine.trace detector packets)[j]? = some (.returned true)) := by
  rw [Machine.trace_getElem?, Machine.trace_getElem?, first, second]
  rintro ⟨once, twice⟩
  have allowed := Option.some.inj once
  obtain ⟨header, hp⟩ := DuplicatePacketDetector.header_of_allowed allowed
  have hq := DataPacketHeader.ofPacket_congr hp name start rate count
  -- the packets before, at and between the two positions
  have split : packets.take j = packets.take i ++ p :: (packets.take j).drop (i + 1) := by
    have known : (packets.take j)[i]? = some p := by rw [List.getElem?_take_of_lt earlier, first]
    have := List.take_append_drop i (packets.take j)
    rw [List.take_take, min_eq_left earlier.le, List.drop_eq_getElem?_toList_append, known] at this
    exact this.symm
  have prefixes := admitted
  rw [← List.take_append_drop j packets, Machine.admissible_append, split,
    Machine.admissible_append] at prefixes
  obtain ⟨⟨before, at_, between⟩, -⟩ := prefixes
  have order := before.invariant DuplicatePacketDetector.InOrder
    (fun _ _ order admits => DuplicatePacketDetector.inOrder_step order admits)
    (DuplicatePacketDetector.inOrder_construct constructed)
  have remembered := between.invariant
    (fun detector => detector.InOrder ∧ detector.Remembers header)
    (fun _ _ kept admits => ⟨DuplicatePacketDetector.inOrder_step kept.1 admits,
      DuplicatePacketDetector.remembers_step kept.1 admits kept.2⟩)
    ⟨DuplicatePacketDetector.inOrder_step order at_,
      DuplicatePacketDetector.remembers_of_allowed hp allowed⟩
  refine DuplicatePacketDetector.not_allowed_of_remembers remembered.1 hq remembered.2 ?_
  rw [split, Machine.run_append] at twice
  exact Option.some.inj twice

/-- A repeat after the packet it repeats was dropped from a buffer for two. -/
theorem no_packet_allowed_twice_after_overflow :
    let packets := [channelPacket "HHZ" 0 100, channelPacket "HHZ" 1 100, channelPacket "HHZ" 2 100,
      channelPacket "HHZ" 0 100]
    let detector : DuplicatePacketDetector := ⟨{ mCircularBufferSize := 2 }⟩
    ¬((detectorMachine.trace detector packets)[0]? = some (.returned true) ∧
      (detectorMachine.trace detector packets)[3]? = some (.returned true)) :=
  no_packet_allowed_twice ⟨-1, 2⟩ rfl (by decide +kernel) (by decide) rfl rfl rfl rfl rfl rfl

/-- A packet filled in around a remembered one is dropped by the next packet and,
when the remembered one is dropped in turn, is filled in again. -/
theorem covering_packet_allowed_again :
    let packets := [channelPacket "HHZ" 10 1001, channelPacket "HHZ" 5 2501,
      channelPacket "HHZ" 40 1001, channelPacket "HHZ" 5 2501]
    packets[1]? = packets[3]? ∧
      (DuplicatePacketDetector.construct ⟨-1, 2⟩).map
          (fun detector => detectorMachine.trace detector packets) =
        .ok [.returned true, .returned true, .returned true, .returned true] := by
  decide +kernel

end UDataPacketService
