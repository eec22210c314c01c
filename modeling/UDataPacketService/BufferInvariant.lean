import UDataPacketService.DetectorMemory

/-! The invariant of the buffers of the duplicate detector, for packets of any kind.
Every header that is not found in a buffer has the buffer's sampling rate, and its
start differs from every start in the buffer wherever it is put. A packet that is
refused leaves the buffers as they were, but for an older one that finds room. -/
namespace UDataPacketService
open Std (ExtTreeMap)
open OrderedContainers IntervalChain

namespace DataPacketHeader

/-- `std::is_sorted` by start time. -/
def IsSorted (items : List DataPacketHeader) : Prop := items.IsChain StartsFirst

instance (items : List DataPacketHeader) : Decidable (IsSorted items) :=
  inferInstanceAs (Decidable (items.IsChain StartsFirst))

theorem samplingRate_eq {lhs rhs : DataPacketHeader} (name : lhs.name = rhs.name)
    (unequal : lhs.equals rhs = .ok false) : lhs.samplingRate = rhs.samplingRate := by
  unfold equals at unequal
  rw [if_neg (not_not.mpr name.symm)] at unequal
  split at unequal
  · cases unequal
  · rename_i same
    omega

theorem startTime_ne_of_not_slips {header streamHeader : DataPacketHeader}
    (clear : ¬header.slips streamHeader = true) : header.startTime ≠ streamHeader.startTime := by
  intro same
  rw [slips_iff] at clear
  exact clear (.inl ⟨same.ge, same.trans_le streamHeader.ordered⟩)

end DataPacketHeader

/-- The assertion that a debug build makes behind `push_front`. -/
def DuplicatePacketDetectorImpl.AssertsSorted (buffer : CircularBuffer DataPacketHeader)
    (header : DataPacketHeader) : Prop :=
  match header.find buffer.items with
  | .ok false =>
      if header.startTime > buffer.back.endTime then True
      else if header.endTime < buffer.front.startTime then
        if buffer.full then True else DataPacketHeader.IsSorted (buffer.pushFront header).items
      else True
  | _ => True

namespace HeaderBuffer

/-- The headers are of one stream and one sampling rate, in the order of their starts. -/
structure Sound (name : String) (buffer : CircularBuffer DataPacketHeader) : Prop where
  named : ∀ header ∈ buffer.items, header.name = name
  rate : ∀ header ∈ buffer.items, header.samplingRate = buffer.front.samplingRate
  sorted : Chain DataPacketHeader.startTime DataPacketHeader.startTime buffer.items

structure Retains (buffer next : CircularBuffer DataPacketHeader) : Prop where
  capacity : next.capacity = buffer.capacity
  full : buffer.full = true → next.full = true

variable {name : String} {buffer next : CircularBuffer DataPacketHeader}
  {header : DataPacketHeader}

theorem Retains.refl (buffer : CircularBuffer DataPacketHeader) : Retains buffer buffer :=
  ⟨rfl, id⟩

theorem Retains.trans {last : CircularBuffer DataPacketHeader} (h : Retains buffer next)
    (further : Retains next last) : Retains buffer last :=
  ⟨further.capacity.trans h.capacity, fun full => further.full (h.full full)⟩

theorem sound_start (capacity : ℕ) (positive : 0 < capacity) (header : DataPacketHeader) :
    Sound header.name (.start capacity positive header) where
  named := by
    intro streamHeader member
    rw [List.mem_singleton.mp member]
  rate := by
    intro streamHeader member
    rw [List.mem_singleton.mp member]
    rfl
  sorted := List.pairwise_singleton _ header

namespace Sound

theorem rate_of_find (sound : Sound name buffer) (own : header.name = name)
    (unknown : header.find buffer.items = .ok false) :
    ∀ streamHeader ∈ buffer.items, streamHeader.samplingRate = header.samplingRate := by
  intro streamHeader member
  have unequal := (DataPacketHeader.find_eq_false_iff header buffer.items).mp unknown
  exact DataPacketHeader.samplingRate_eq ((sound.named _ member).trans own.symm)
    (unequal streamHeader member)

/-- Old headers and a new one that was not found make a sound buffer in any order of
their starts. -/
theorem of_mem (sound : Sound name buffer) (own : header.name = name)
    (unknown : header.find buffer.items = .ok false)
    (members : ∀ streamHeader ∈ next.items, streamHeader ∈ buffer.items ∨ streamHeader = header)
    (sorted : Chain DataPacketHeader.startTime DataPacketHeader.startTime next.items) :
    Sound name next := by
  have rate : ∀ streamHeader ∈ next.items, streamHeader.samplingRate = header.samplingRate := by
    intro streamHeader member
    rcases members streamHeader member with old | rfl
    · exact sound.rate_of_find own unknown streamHeader old
    · rfl
  refine ⟨fun streamHeader member => ?_, fun streamHeader member => ?_, sorted⟩
  · rcases members streamHeader member with old | rfl
    · exact sound.named streamHeader old
    · exact own
  · rw [rate streamHeader member, rate next.front next.front_mem]

theorem front_startTime_le_back (sound : Sound name buffer) :
    buffer.front.startTime ≤ buffer.back.startTime :=
  sound.sorted.head_le (fun _ => le_rfl) buffer.nonempty buffer.back_mem

theorem mem_of_pushBack {streamHeader : DataPacketHeader}
    (member : streamHeader ∈ (buffer.pushBack header).items) :
    streamHeader ∈ buffer.items ∨ streamHeader = header := by
  obtain ⟨kept, sublist, items⟩ := buffer.pushBack_eq header
  rw [items] at member
  rcases List.mem_append.mp member with old | new
  · exact .inl (sublist.subset old)
  · exact .inr (List.mem_singleton.mp new)

theorem append (sound : Sound name buffer) (own : header.name = name)
    (unknown : header.find buffer.items = .ok false)
    (later : buffer.back.endTime < header.startTime) : Sound name (buffer.pushBack header) := by
  refine sound.of_mem own unknown (fun _ member => mem_of_pushBack member) ?_
  obtain ⟨kept, sublist, items⟩ := buffer.pushBack_eq header
  have after := sound.sorted.before_of_last (fun _ => le_rfl) buffer.nonempty
    (buffer.back.ordered.trans_lt later)
  rw [items]
  exact Chain.concat (sound.sorted.sublist sublist) (fun b member => after b (sublist.subset member))

theorem older (sound : Sound name buffer) (own : header.name = name)
    (unknown : header.find buffer.items = .ok false)
    (older : header.endTime < buffer.front.startTime) (room : ¬buffer.full = true) :
    Sound name (buffer.pushFront header) := by
  have items := buffer.pushFront_of_not_full header room
  refine sound.of_mem own unknown (fun streamHeader member => ?_) ?_
  · rw [items] at member
    exact (List.mem_cons.mp member).symm
  · rw [items]
    exact List.pairwise_cons.mpr ⟨sound.sorted.before_of_head (fun _ => le_rfl) buffer.nonempty
      (header.ordered.trans_lt older), sound.sorted⟩

theorem fill (sound : Sound name buffer) (own : header.name = name)
    (unknown : header.find buffer.items = .ok false)
    (untouched : ¬buffer.items.any header.slips = true) :
    Sound name ((buffer.pushBack header).sort DataPacketHeader.StartsFirst) := by
  refine sound.of_mem own unknown (fun streamHeader member => ?_) ?_
  · exact mem_of_pushBack (((buffer.pushBack header).perm_sort _).mem_iff.mp member)
  · obtain ⟨kept, sublist, items⟩ := buffer.pushBack_eq header
    apply chain_insertionSort (fun _ => le_rfl)
    rw [items]
    refine List.pairwise_append.mpr
      ⟨sound.sorted.apart.sublist sublist, List.pairwise_singleton _ header, ?_⟩
    intro streamHeader member last same
    rw [List.mem_singleton.mp same]
    have clear : ¬header.slips streamHeader = true := fun slips =>
      untouched (List.any_eq_true.mpr ⟨streamHeader, sublist.subset member, slips⟩)
    exact lt_or_gt_of_ne (DataPacketHeader.startTime_ne_of_not_slips clear).symm

theorem allowIn (sound : Sound name buffer) (own : header.name = name) :
    Sound name (DuplicatePacketDetectorImpl.allowIn buffer header).2 := by
  have decision := allowIn_decision buffer header
  generalize DuplicatePacketDetectorImpl.allowIn buffer header = result at decision
  cases decision with
  | threw | duplicate | expired | slip => exact sound
  | append unknown later => exact sound.append own unknown later
  | older unknown older room => exact sound.older own unknown older room
  | fill unknown inside untouched => exact sound.fill own unknown untouched

/-- The assertion behind `push_front` holds. -/
theorem assertsSorted (sound : Sound name buffer) (own : header.name = name) :
    DuplicatePacketDetectorImpl.AssertsSorted buffer header := by
  unfold DuplicatePacketDetectorImpl.AssertsSorted
  split
  · rename_i unknown
    split_ifs with later older full
    -- the other exits push nothing to the front
    have sorted := (sound.older own unknown older full).sorted
    exact List.Pairwise.isChain (sorted.imp le_of_lt)
  · trivial

end Sound

/-- A header that is not allowed changes the buffer only if it finds room before the
front. -/
theorem allowIn_of_refused
    (refused : (DuplicatePacketDetectorImpl.allowIn buffer header).1 = .returned false ∨
      ∃ what, (DuplicatePacketDetectorImpl.allowIn buffer header).1 = .threw what)
    (no : ¬(header.find buffer.items = .ok false ∧ header.endTime < buffer.front.startTime ∧
      ¬buffer.full = true)) :
    (DuplicatePacketDetectorImpl.allowIn buffer header).2 = buffer := by
  have decision := allowIn_decision buffer header
  generalize DuplicatePacketDetectorImpl.allowIn buffer header = result at decision refused
  cases decision with
  | threw | duplicate | expired | slip => rfl
  | older unknown older room => exact absurd ⟨unknown, older, room⟩ no
  | append | fill =>
      rcases refused with refused | ⟨what, thrown⟩
      · cases refused
      · cases thrown

theorem retains_pushBack (buffer : CircularBuffer DataPacketHeader) (header : DataPacketHeader) :
    Retains buffer (buffer.pushBack header) :=
  ⟨rfl, buffer.full_pushBack header⟩

theorem retains_sort (buffer : CircularBuffer DataPacketHeader) :
    Retains buffer (buffer.sort DataPacketHeader.StartsFirst) := by
  refine ⟨rfl, fun full => ?_⟩
  rw [CircularBuffer.full_iff] at full ⊢
  rw [(buffer.perm_sort _).length_eq, full]
  rfl

theorem retains_allowIn (buffer : CircularBuffer DataPacketHeader) (header : DataPacketHeader) :
    Retains buffer (DuplicatePacketDetectorImpl.allowIn buffer header).2 := by
  have decision := allowIn_decision buffer header
  generalize DuplicatePacketDetectorImpl.allowIn buffer header = result at decision
  cases decision with
  | threw | duplicate | expired | slip => exact .refl buffer
  | append => exact retains_pushBack buffer header
  | older _ _ room => exact ⟨rfl, fun full => absurd full room⟩
  | fill => exact (retains_pushBack buffer header).trans (retains_sort _)

end HeaderBuffer

namespace DuplicatePacketDetector
open HeaderBuffer

def Sound (detector : DuplicatePacketDetector) : Prop :=
  ∀ (name : String) (buffer : CircularBuffer DataPacketHeader),
    detector.pImpl.mCircularBuffers[name]? = some buffer → HeaderBuffer.Sound name buffer

/-- A packet that is no duplicate lies before everything the buffer of its stream
holds, and the buffer has room. -/
def OlderWithRoom (detector : DuplicatePacketDetector) (packet : Packet) : Prop :=
  ∃ header buffer, DataPacketHeader.ofPacket packet = .ok header ∧
    detector.pImpl.mCircularBuffers[header.name]? = some buffer ∧
    header.find buffer.items = .ok false ∧ header.endTime < buffer.front.startTime ∧
    ¬buffer.full = true

/-- A packet that is refused leaves the buffers alone, and one that is allowed is in
the buffer of its stream. -/
def RefusesCleanly (detector : DuplicatePacketDetector) (packet : Packet) : Prop :=
  (((detector.allow packet).1 = .returned false ∨ ∃ what, (detector.allow packet).1 = .threw what) →
    (detector.allow packet).2.pImpl.mCircularBuffers = detector.pImpl.mCircularBuffers) ∧
  ((detector.allow packet).1 = .returned true →
    ∃ header buffer, DataPacketHeader.ofPacket packet = .ok header ∧
      (detector.allow packet).2.pImpl.mCircularBuffers[header.name]? = some buffer ∧
      header ∈ buffer.items)

variable {detector : DuplicatePacketDetector} {packet : Packet} {header : DataPacketHeader}

theorem sound_step (sound : detector.Sound) (packet : Packet) :
    (detectorMachine.step detector packet).1.Sound :=
  buffers_step HeaderBuffer.Sound (fun header capacity positive => sound_start capacity positive header)
    (fun _ _ _ _ sound => sound.allowIn rfl) sound

theorem retains_step {name : String} {buffer : CircularBuffer DataPacketHeader}
    (held : detector.pImpl.mCircularBuffers[name]? = some buffer) (packet : Packet) :
    ∃ next, (detectorMachine.step detector packet).1.pImpl.mCircularBuffers[name]? = some next ∧
      Retains buffer next := by
  obtain ⟨next, still, rfl | ⟨header, -, -, rfl⟩⟩ := held_step held packet
  · exact ⟨next, still, .refl next⟩
  · exact ⟨_, still, retains_allowIn buffer header⟩

theorem retains_run {name : String} {buffer : CircularBuffer DataPacketHeader}
    (held : detector.pImpl.mCircularBuffers[name]? = some buffer) (packets : List Packet) :
    ∃ next, (detectorMachine.run detector packets).pImpl.mCircularBuffers[name]? = some next ∧
      Retains buffer next := by
  apply detectorMachine.run_invariant
    (fun after => ∃ next, after.pImpl.mCircularBuffers[name]? = some next ∧ Retains buffer next)
  · rintro after packet ⟨next, still, retains⟩
    obtain ⟨last, later, further⟩ := retains_step still packet
    exact ⟨last, later, retains.trans further⟩
  · exact ⟨buffer, held, .refl buffer⟩

theorem sound_construct {options : DuplicatePacketDetectorOptions}
    (constructed : construct options = .ok detector) : detector.Sound := by
  intro name buffer hb
  rw [construct_new constructed] at hb
  simp at hb

theorem sound_run {options : DuplicatePacketDetectorOptions}
    (constructed : construct options = .ok detector) (packets : List Packet) :
    (detectorMachine.run detector packets).Sound :=
  detectorMachine.run_invariant Sound (fun _ packet sound => sound_step sound packet)
    (sound_construct constructed) packets

/-- A sound detector refuses a packet cleanly unless it finds room before the front. -/
theorem refusesCleanly_iff (sound : detector.Sound) :
    detector.RefusesCleanly packet ↔ ¬detector.OlderWithRoom packet := by
  constructor
  · rintro ⟨refused, -⟩ ⟨header, buffer, h, known, unknown, older, room⟩
    have inside : ¬header.startTime > buffer.back.endTime := by
      have first := (sound _ buffer known).front_startTime_le_back
      have := header.ordered
      have := buffer.back.ordered
      omega
    have pushed : DuplicatePacketDetectorImpl.allowIn buffer header =
        (.returned false, buffer.pushFront header) := by
      simp only [DuplicatePacketDetectorImpl.allowIn, unknown, if_neg inside, if_pos older,
        if_neg room]
    rw [allow_of_known h known, pushed] at refused
    have same := congrArg (fun buffers => buffers[header.name]?) (refused (.inl rfl))
    simp only [getElem?_insert, if_true, known] at same
    have items := congrArg CircularBuffer.items (Option.some.inj same)
    rw [buffer.pushFront_of_not_full header room] at items
    exact List.cons_ne_self header buffer.items items
  · intro no
    cases h : DataPacketHeader.ofPacket packet with
    | error what =>
        have refused : detector.allow packet = (.returned false, detector) := by
          simp only [allow, h]
        rw [RefusesCleanly, refused]
        exact ⟨fun _ => rfl, fun allowed => by cases allowed⟩
    | ok header =>
        cases known : detector.pImpl.mCircularBuffers[header.name]? with
        | none =>
            rcases allow_of_new h known with undefined | ⟨capacity, positive, opened⟩
            · rw [RefusesCleanly, undefined]
              exact ⟨fun _ => rfl, fun allowed => by cases allowed⟩
            · rw [RefusesCleanly, opened]
              refine ⟨fun refused => ?_, fun _ => ⟨header, .start capacity positive header, h, ?_,
                List.mem_singleton_self header⟩⟩
              · rcases refused with refused | ⟨what, thrown⟩
                · cases refused
                · cases thrown
              · rw [getElem?_insert, if_pos rfl]
        | some buffer =>
            rw [RefusesCleanly, allow_of_known h known]
            refine ⟨fun refused => ?_, fun allowed => ⟨header, _, h, ?_, mem_of_allowed allowed⟩⟩
            · have unchanged : (DuplicatePacketDetectorImpl.allowIn buffer header).2 = buffer :=
                allowIn_of_refused refused (fun older => no ⟨header, buffer, h, known, older⟩)
              rw [unchanged]
              exact insert_same _ known
            · rw [getElem?_insert, if_pos rfl]

end DuplicatePacketDetector

/-- In every reachable state a buffer is non-empty and bounded, holds headers of one
stream and one sampling rate in the order of their starts, keeps its capacity, stays
full once it is full, and fails no assertion. -/
theorem buffers_sound (options : DuplicatePacketDetectorOptions)
    {detector : DuplicatePacketDetector}
    (constructed : DuplicatePacketDetector.construct options = .ok detector)
    (packets : List Packet) (name : String) {buffer : CircularBuffer DataPacketHeader}
    (held : (detectorMachine.run detector packets).pImpl.mCircularBuffers[name]? = some buffer) :
    buffer.items ≠ [] ∧ buffer.items.length ≤ buffer.capacity ∧
      (∀ header ∈ buffer.items, header.name = name ∧ 0 < header.nSamples) ∧
      (∀ lhs ∈ buffer.items, ∀ rhs ∈ buffer.items, lhs.samplingRate = rhs.samplingRate) ∧
      buffer.items.Pairwise (fun lhs rhs => lhs.startTime < rhs.startTime) ∧
      (∀ further, ∃ next,
        (detectorMachine.run detector (packets ++ further)).pImpl.mCircularBuffers[name]? =
          some next ∧
        next.capacity = buffer.capacity ∧ (buffer.full = true → next.full = true)) ∧
      ∀ header : DataPacketHeader, header.name = name →
        DuplicatePacketDetectorImpl.AssertsSorted buffer header := by
  have sound := DuplicatePacketDetector.sound_run constructed packets name buffer held
  refine ⟨buffer.nonempty, buffer.bounded,
    fun header member => ⟨sound.named header member, header.positive⟩, ?_, sound.sorted, ?_,
    fun header own => sound.assertsSorted own⟩
  · intro lhs hl rhs hr
    rw [sound.rate lhs hl, sound.rate rhs hr]
  · intro further
    obtain ⟨next, still, retains⟩ := DuplicatePacketDetector.retains_run held further
    rw [Machine.run_append]
    exact ⟨next, still, retains.capacity, retains.full⟩

/-- A third packet that fills the gap in a full buffer for two. -/
theorem buffers_sound_when_full :
    ∃ buffer, (detectorMachine.run ⟨{ mCircularBufferSize := 2 }⟩ [channelPacket "HHZ" 0 100,
        channelPacket "HHZ" 4 100, channelPacket "HHZ" 2 100]).pImpl.mCircularBuffers[
          "UU.CWU.HHZ.01"]? = some buffer ∧ buffer.items ≠ [] ∧
      buffer.items.Pairwise (fun lhs rhs => lhs.startTime < rhs.startTime) := by
  have known : ((detectorMachine.run ⟨{ mCircularBufferSize := 2 }⟩ [channelPacket "HHZ" 0 100,
      channelPacket "HHZ" 4 100, channelPacket "HHZ" 2 100]).pImpl.mCircularBuffers[
        "UU.CWU.HHZ.01"]?).isSome = true := by decide +kernel
  obtain ⟨buffer, held⟩ := Option.isSome_iff_exists.mp known
  have sound := buffers_sound ⟨-1, 2⟩ rfl _ _ held
  exact ⟨buffer, held, sound.1, sound.2.2.2.2.1⟩

/-- A packet is refused cleanly in a reachable state exactly if it does not find room
before the front of its stream's buffer. -/
theorem refused_packet_leaves_no_trace_iff (options : DuplicatePacketDetectorOptions)
    {detector : DuplicatePacketDetector}
    (constructed : DuplicatePacketDetector.construct options = .ok detector)
    (packets : List Packet) (packet : Packet) :
    (detectorMachine.run detector packets).RefusesCleanly packet ↔
      ¬(detectorMachine.run detector packets).OlderWithRoom packet :=
  DuplicatePacketDetector.refusesCleanly_iff
    (DuplicatePacketDetector.sound_run constructed packets)

/-- A packet from before the start of a full buffer. -/
theorem refused_packet_leaves_no_trace_when_full :
    (detectorMachine.run ⟨{ mCircularBufferSize := 1 }⟩ [channelPacket "HHZ" 1 100]).RefusesCleanly
      (channelPacket "HHZ" 0 100) := by
  refine (refused_packet_leaves_no_trace_iff ⟨-1, 1⟩ rfl _ _).mpr ?_
  rintro ⟨header, buffer, accepted, known, -, -, room⟩
  cases accepted
  cases known
  exact room (by decide +kernel)

/-- The packet of the second before the first one is remembered and refused. -/
theorem refused_packet_remembered :
    ¬(detectorMachine.run ⟨{ mCircularBufferSize := 2 }⟩ [channelPacket "HHZ" 1 100]).RefusesCleanly
      (channelPacket "HHZ" 0 100) := by
  have constructed : DuplicatePacketDetector.construct ⟨-1, 2⟩ =
      .ok ⟨{ mCircularBufferSize := 2 }⟩ := rfl
  have sound := DuplicatePacketDetector.sound_run constructed [channelPacket "HHZ" 1 100]
  rw [DuplicatePacketDetector.refusesCleanly_iff sound, not_not]
  exact ⟨_, _, rfl, rfl, by decide +kernel, by decide +kernel, by decide +kernel⟩

end UDataPacketService
