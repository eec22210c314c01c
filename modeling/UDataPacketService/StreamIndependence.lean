import UDataPacketService.DetectorModel

/-! What the packets of other streams change for a stream in the duplicate packet
detector: nothing. A call of `allow` reads and writes the circular buffer of its own
name, and beside it reads only the options of the detector. -/
namespace UDataPacketService
open OrderedContainers

namespace DuplicatePacketDetector

/-- Two detectors with the same options and the same buffer for a stream. -/
structure Shares (name : String) (first second : DuplicatePacketDetector) : Prop where
  capacity : ∀ header, first.pImpl.newCapacity header = second.pImpl.newCapacity header
  buffer : first.pImpl.mCircularBuffers[name]? = second.pImpl.mCircularBuffers[name]?

variable {name : String} {first second : DuplicatePacketDetector} {packet : Packet}

theorem newCapacity_allow (detector : DuplicatePacketDetector) (packet : Packet)
    (header : DataPacketHeader) :
    (detector.allow packet).2.pImpl.newCapacity header = detector.pImpl.newCapacity header := by
  unfold allow
  split
  · rfl
  · unfold DuplicatePacketDetectorImpl.allow
    split
    · split <;> rfl
    · rfl

theorem ofPacket_name {header : DataPacketHeader} (h : DataPacketHeader.ofPacket packet = .ok header) :
    header.name = packet.toName := by
  unfold DataPacketHeader.ofPacket at h
  split at h
  · cases h
  · simp only at h
    split at h
    · cases h
    · rw [← Except.ok.inj h]

theorem buffer_allow_of_ne (detector : DuplicatePacketDetector) (other : packet.toName ≠ name) :
    (detector.allow packet).2.pImpl.mCircularBuffers[name]? =
      detector.pImpl.mCircularBuffers[name]? := by
  unfold allow
  split
  · rfl
  · rename_i header h
    have differ : header.name ≠ name := ofPacket_name h ▸ other
    unfold DuplicatePacketDetectorImpl.allow
    split
    · split
      · rfl
      · exact getElem?_insert_of_ne _ _ differ
    · exact getElem?_insert_of_ne _ _ differ

/-- A packet of the stream meets the same buffer in both detectors. -/
theorem Shares.allow (h : Shares name first second) (own : packet.toName = name) :
    (first.allow packet).1 = (second.allow packet).1 ∧
      (first.allow packet).2.pImpl.mCircularBuffers[name]? =
        (second.allow packet).2.pImpl.mCircularBuffers[name]? := by
  unfold DuplicatePacketDetector.allow
  cases read : DataPacketHeader.ofPacket packet with
  | error what => exact ⟨rfl, h.buffer⟩
  | ok header =>
      have named : header.name = name := (ofPacket_name read).trans own
      have same := h.buffer
      simp only [DuplicatePacketDetectorImpl.allow, named, same, h.capacity header]
      split
      · split
        · exact ⟨rfl, same⟩
        · exact ⟨rfl, by rw [getElem?_insert, getElem?_insert, if_pos rfl, if_pos rfl]⟩
      · exact ⟨rfl, by rw [getElem?_insert, getElem?_insert, if_pos rfl, if_pos rfl]⟩

end DuplicatePacketDetector

open DuplicatePacketDetector

/-- In every run the packets of a stream are answered as a second detector answers
them that receives no others, and the buffer of the stream ends up the same. -/
theorem streams_independent (options : DuplicatePacketDetectorOptions)
    {detector fresh : DuplicatePacketDetector} (constructed : construct options = .ok detector)
    (alone : construct options = .ok fresh) (packets : List Packet) (name : String) :
    detectorMachine.outputsOf (fun packet => packet.toName = name) detector packets =
        detectorMachine.trace fresh (packets.filter (fun packet => packet.toName = name)) ∧
      (detectorMachine.run detector packets).pImpl.mCircularBuffers[name]? =
        (detectorMachine.run fresh (packets.filter
          (fun packet => packet.toName = name))).pImpl.mCircularBuffers[name]? := by
  obtain rfl := Except.ok.inj (constructed.symm.trans alone)
  obtain ⟨outputs, last⟩ := detectorMachine.outputsOf_filter
    (fun packet => packet.toName = name) (Shares name)
    (fun first _ packet h other =>
      ⟨fun header => (newCapacity_allow first packet header).trans (h.capacity header),
        (buffer_allow_of_ne first other).trans h.buffer⟩)
    (fun first second packet h own =>
      ⟨(h.allow own).1,
        fun header => (newCapacity_allow first packet header).trans
          ((h.capacity header).trans (newCapacity_allow second packet header).symm),
        (h.allow own).2⟩)
    (⟨fun _ => rfl, rfl⟩ : Shares name detector detector) packets
  exact ⟨outputs, last.buffer⟩

/-- One stream is interrupted by another whose call throws in the middle of a search. -/
theorem streams_independent_after_throw :
    let changed : Packet := { channelPacket "HHE" 1 100 with samplingRateField := some 50 }
    let packets := [channelPacket "HHZ" 0 100, channelPacket "HHE" 0 100, changed,
      channelPacket "HHZ" 0 100, channelPacket "HHZ" 1 100]
    let detector : DuplicatePacketDetector :=
      ⟨{ mCircularBufferDuration := 60, mEstimateCapacity := true }⟩
    detectorMachine.outputsOf (fun packet => packet.toName = "UU.CWU.HHZ.01") detector packets =
        detectorMachine.trace detector
          (packets.filter (fun packet => packet.toName = "UU.CWU.HHZ.01")) ∧
      (detectorMachine.run detector packets).pImpl.mCircularBuffers["UU.CWU.HHZ.01"]? =
        (detectorMachine.run detector (packets.filter
          (fun packet => packet.toName = "UU.CWU.HHZ.01"))).pImpl.mCircularBuffers["UU.CWU.HHZ.01"]? :=
  streams_independent ⟨60, -1⟩ rfl rfl _ _

end UDataPacketService
