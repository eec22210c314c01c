import UDataPacketService.DetectorMemory

/-! Timing slips. A packet whose interval meets a remembered one of its stream is
refused as long as it does not reach beyond both ends of the remembered interval
without being recognized by another test. -/
namespace UDataPacketService
open IntervalChain

namespace HeaderBuffer
variable {buffer : CircularBuffer DataPacketHeader} {header : DataPacketHeader}

/-- While the buffer is in order, an allowed header that is recognized is apart
from everything the buffer holds. -/
theorem apart_of_allowed (order : InOrder buffer) (recognized : header.Recognized buffer)
    (allowed : (DuplicatePacketDetectorImpl.allowIn buffer header).1 = .returned true) :
    ∀ streamHeader ∈ buffer.items,
      Apart DataPacketHeader.startTime DataPacketHeader.endTime header streamHeader := by
  intro streamHeader member
  have decision := allowIn_decision buffer header
  generalize DuplicatePacketDetectorImpl.allowIn buffer header = result at decision allowed
  cases decision with
  | threw | duplicate | expired | older | slip => cases allowed
  | append unknown later =>
      exact .inr (order.before_of_last DataPacketHeader.proper buffer.nonempty later _ member)
  | fill unknown inside untouched =>
      exact apart_of_untouched untouched recognized unknown streamHeader member

/-- A header around a remembered interval that no test recognizes is filled in. -/
theorem allowed_of_not_recognized (order : InOrder buffer)
    (unrecognized : ¬header.Recognized buffer) :
    (∃ streamHeader ∈ buffer.items,
      Covers DataPacketHeader.startTime DataPacketHeader.endTime header streamHeader) ∧
      (DuplicatePacketDetectorImpl.allowIn buffer header).1 = .returned true := by
  obtain ⟨encloses, missed⟩ := Classical.not_imp.mp unrecognized
  obtain ⟨unknown, untouched⟩ := not_or.mp missed
  refine ⟨encloses, ?_⟩
  obtain ⟨streamHeader, member, left, right⟩ := encloses
  have decision := allowIn_decision buffer header
  generalize DuplicatePacketDetectorImpl.allowIn buffer header = result at decision
  cases decision with
  | threw what thrown => exact absurd (by rw [thrown]; nofun) unknown
  | duplicate found => exact absurd (by rw [found]; nofun) unknown
  | append _ _ => rfl
  | expired _ older _ | older _ older _ =>
      have before := order.before_of_head DataPacketHeader.proper buffer.nonempty older _ member
      exact absurd (before.hi_lt DataPacketHeader.proper) (not_lt_of_gt right)
  | slip _ slips => exact absurd slips untouched
  | fill _ _ _ => rfl

end HeaderBuffer

namespace DuplicatePacketDetector
open HeaderBuffer

/-- No two intervals that the detector remembers for one stream have a common time. -/
def Separated (detector : DuplicatePacketDetector) : Prop :=
  ∀ (name : String) (buffer : CircularBuffer DataPacketHeader),
    detector.pImpl.mCircularBuffers[name]? = some buffer →
      buffer.items.Pairwise (Apart DataPacketHeader.startTime DataPacketHeader.endTime)

/-- A packet whose interval meets a remembered one of its stream is not allowed. -/
def RejectsSlip (detector : DuplicatePacketDetector) (packet : Packet) : Prop :=
  ∀ header, DataPacketHeader.ofPacket packet = .ok header →
    ∀ buffer, detector.pImpl.mCircularBuffers[header.name]? = some buffer →
      ∀ streamHeader ∈ buffer.items,
        ¬Apart DataPacketHeader.startTime DataPacketHeader.endTime header streamHeader →
          (detector.allow packet).1 ≠ .returned true

variable {detector : DuplicatePacketDetector} {packet : Packet}

theorem InOrder.separated (order : detector.InOrder) : detector.Separated :=
  fun name buffer known => (order name buffer known).apart

/-- In a detector in order the slips are rejected exactly at the packets that are
recognized around a remembered interval. -/
theorem rejectsSlip_iff (order : detector.InOrder) :
    detector.RejectsSlip packet ↔ detector.Admits packet := by
  constructor
  · intro rejects
    unfold Admits
    split
    · trivial
    · rename_i header h
      intro buffer known
      by_contra unrecognized
      obtain ⟨⟨streamHeader, member, covers⟩, allowed⟩ :=
        allowed_of_not_recognized (order header.name buffer known) unrecognized
      refine rejects header h buffer known streamHeader member ?_ ?_
      · exact fun apart => apart.not_covers DataPacketHeader.proper covers
      · rw [allow_of_known h known]
        exact allowed
  · intro admits header h buffer known streamHeader member meets allowed
    rw [allow_of_known h known] at allowed
    exact meets (apart_of_allowed (order header.name buffer known) (admits.recognized h known)
      allowed streamHeader member)

end DuplicatePacketDetector

open DuplicatePacketDetector

/-- Along a run the remembered intervals stay apart and every slip is rejected
exactly when each packet around a remembered interval is recognized. -/
theorem timing_slips_rejected_iff (options : DuplicatePacketDetectorOptions)
    {detector : DuplicatePacketDetector} (constructed : construct options = .ok detector)
    (packets : List Packet) :
    ((∀ earlier, earlier <+: packets → (detectorMachine.run detector earlier).Separated) ∧
        detectorMachine.Admissible RejectsSlip detector packets) ↔
      detectorMachine.Admissible Admits detector packets := by
  have start := inOrder_construct constructed
  constructor
  · rintro ⟨-, rejects⟩
    exact rejects.imp InOrder
      (fun _ _ order slip => inOrder_step order ((rejectsSlip_iff order).mp slip))
      (fun _ _ order slip => (rejectsSlip_iff order).mp slip) start
  · intro admitted
    refine ⟨?_, ?_⟩
    · rintro earlier ⟨later, rfl⟩
      have before := ((detectorMachine.admissible_append Admits detector earlier later).mp admitted).1
      exact (before.invariant InOrder (fun _ _ order admits => inOrder_step order admits)
        start).separated
    · exact admitted.imp InOrder (fun _ _ order admits => inOrder_step order admits)
        (fun _ _ order admits => (rejectsSlip_iff order).mpr admits) start

/-- A slip to the left of a remembered packet, one inside it, and a packet around
two packets that starts where the first of them does. -/
theorem timing_slips_rejected_left_and_inside :
    let packets := [channelPacket "HHZ" 10 1001, channelPacket "HHZ" 5 1001,
      channelPacket "HHZ" 12 201, channelPacket "HHZ" 30 1001, channelPacket "HHZ" 10 3001]
    let detector : DuplicatePacketDetector := ⟨{ mCircularBufferSize := 5 }⟩
    (∀ earlier, earlier <+: packets → (detectorMachine.run detector earlier).Separated) ∧
      detectorMachine.Admissible RejectsSlip detector packets :=
  (timing_slips_rejected_iff ⟨-1, 5⟩ rfl _).mpr (by decide +kernel)

/-- A packet around a remembered one is allowed, and both are remembered. -/
theorem covering_packet_filled_in :
    let detector : DuplicatePacketDetector := ⟨{ mCircularBufferSize := 2 }⟩
    let packets := [channelPacket "HHZ" 10 1001, channelPacket "HHZ" 5 2501]
    construct ⟨-1, 2⟩ = .ok detector ∧ ¬(detectorMachine.run detector packets).Separated ∧
      ¬detectorMachine.Admissible RejectsSlip detector packets := by
  refine ⟨rfl, fun separated => ?_, fun rejects => ?_⟩
  · have apart := separated "UU.CWU.HHZ.01" _ rfl
    revert apart
    decide +kernel
  · exact rejects.2.1
      ⟨"UU.CWU.HHZ.01", 5000000, 30000000, 100, 2501, by decide, by decide⟩ (by decide +kernel)
      _ rfl
      ⟨"UU.CWU.HHZ.01", 10000000, 20000000, 100, 1001, by decide, by decide⟩ (by decide +kernel)
      (by decide) (by decide +kernel)

end UDataPacketService
