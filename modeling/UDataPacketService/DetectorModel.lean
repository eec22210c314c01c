import UDataPacketService.PacketModel
import UDataPacketService.OrderedContainers
import UDataPacketService.CircularBuffer
import UDataPacketService.IntervalChain

/-! The duplicate packet detector: one circular buffer of packet headers for each
stream, sorted by start time. Times are microseconds and exact while no `int64_t`
overflows. -/
namespace UDataPacketService
open Std (ExtTreeMap)

theorem startTime_le_endTime {packet : Packet} {endTime : Int}
    (h : getEndTimeInMicroSeconds packet = .ok endTime) :
    packet.startTime.toMicroseconds ≤ endTime := by
  simp only [getEndTimeInMicroSeconds] at h
  split at h
  · cases h
  · rename_i positive
    have interval : 0 ≤ stdRound (1000000 / packet.samplingRate) :=
      stdRound_nonneg (div_nonneg (by norm_num) (le_of_not_ge positive))
    rw [← Except.ok.inj h]
    exact le_add_of_nonneg_right (mul_nonneg interval (Int.natCast_nonneg _))

structure DataPacketHeader where
  name : String
  startTime : Int
  endTime : Int
  samplingRate : Int
  nSamples : Int
  positive : 0 < nSamples
  ordered : startTime ≤ endTime
  deriving DecidableEq, Repr

namespace DataPacketHeader

/-- The constructor. The sample count is read as an `int`. -/
def ofPacket (packet : Packet) : Except String DataPacketHeader :=
  match h : getEndTimeInMicroSeconds packet with
  | .error what => .error what
  | .ok endTime =>
      let nSamples := packet.numberOfSamples.toInt32.toInt
      if none : nSamples ≤ 0 then .error "No samples in packet"
      else .ok {
        name := packet.toName
        startTime := packet.startTime.toMicroseconds
        endTime := endTime
        samplingRate := stdRound packet.samplingRate
        nSamples := nSamples
        positive := lt_of_not_ge none
        ordered := startTime_le_endTime h }

/-- `operator==` with `lhs` on its left, which throws for streams that change their rate. -/
def equals (lhs rhs : DataPacketHeader) : Except String Bool :=
  if rhs.name ≠ lhs.name then .ok false
  else if rhs.samplingRate - lhs.samplingRate ≠ 0 then
    .error ("Inconsistent sampling rates for: " ++ lhs.name)
  else if rhs.nSamples ≠ lhs.nSamples then .ok false
  else
    let dStartTime := |rhs.startTime - lhs.startTime|
    if lhs.samplingRate < 105 then .ok (dStartTime < 15000)
    else if lhs.samplingRate < 255 then .ok (dStartTime < 4500)
    else if lhs.samplingRate < 505 then .ok (dStartTime < 2500)
    else if lhs.samplingRate < 1005 then .ok (dStartTime < 1500)
    else .error ("Could not classify sampling rate: " ++ toString lhs.samplingRate ++ " for " ++
      lhs.name)

/-- `std::find` from the front of a buffer: whether an element equals the header,
unless a comparison on the way throws. -/
def find (header : DataPacketHeader) : List DataPacketHeader → Except String Bool
  | [] => .ok false
  | streamHeader :: rest =>
      match streamHeader.equals header with
      | .error what => .error what
      | .ok true => .ok true
      | .ok false => find header rest

/-- The test for a timing slip against one remembered header. -/
def slips (header streamHeader : DataPacketHeader) : Bool :=
  (header.startTime ≥ streamHeader.startTime && header.startTime ≤ streamHeader.endTime) ||
    (header.endTime ≥ streamHeader.startTime && header.endTime ≤ streamHeader.endTime)

def StartsFirst (lhs rhs : DataPacketHeader) : Prop := lhs.startTime ≤ rhs.startTime

instance : DecidableRel StartsFirst := fun lhs rhs =>
  inferInstanceAs (Decidable (lhs.startTime ≤ rhs.startTime))

end DataPacketHeader

/-- How a call of `allow` ends. A conversion to `int` that C++ leaves undefined
ends it without a value. -/
inductive AllowResult where
  | returned (allowed : Bool)
  | threw (what : String)
  | undefined
  deriving DecidableEq, Repr

/-- `estimateCapacity`. A packet that rounds to no seconds divides by zero, and an
infinite or large quotient is not an `int`. -/
def estimateCapacity (header : DataPacketHeader) (memory : Int) :
    Option { capacity : Int // 0 < capacity } :=
  let duration := max 0 (stdRound ((header.nSamples - 1 : ℚ) / (max 1 header.samplingRate : Int)))
  if duration = 0 then none
  else
    let quotient := ⌊(3 / 2 * memory : ℚ) / duration⌋
    if 2147483647 ≤ quotient then none
    else some ⟨max 10 quotient + 1, by have := le_max_left 10 quotient; omega⟩

structure DuplicatePacketDetectorOptions where
  mCircularBufferDuration : Int := 300
  mCircularBufferSize : Int := -1

namespace DuplicatePacketDetectorOptions

def setCircularBufferSize (size : Int) : Except String DuplicatePacketDetectorOptions :=
  if size ≤ 0 then
    .error ("Circular buffer size of " ++ toString size ++ " must be positive")
  else .ok { mCircularBufferSize := size, mCircularBufferDuration := -1 }

def getCircularBufferSize (options : DuplicatePacketDetectorOptions) : Option Int :=
  if options.mCircularBufferSize > 0 then some options.mCircularBufferSize else none

def setCircularBufferDuration (duration : Int) : Except String DuplicatePacketDetectorOptions :=
  if duration ≤ 0 then .error "Duration must be positive"
  else .ok { mCircularBufferDuration := duration, mCircularBufferSize := -1 }

def getCircularBufferDuration (options : DuplicatePacketDetectorOptions) : Option Int :=
  if options.mCircularBufferDuration > 0 then some options.mCircularBufferDuration else none

end DuplicatePacketDetectorOptions

/-- `DuplicatePacketDetectorImpl`; its constructor refuses a size that is not positive. -/
structure DuplicatePacketDetectorImpl where
  mCircularBuffers : ExtTreeMap String (CircularBuffer DataPacketHeader) := ∅
  mCircularBufferDuration : Int := 300
  mCircularBufferSize : Int := 100
  mEstimateCapacity : Bool := false
  sized : 0 < mCircularBufferSize := by decide

namespace DuplicatePacketDetectorImpl

def newCapacity (detector : DuplicatePacketDetectorImpl) (header : DataPacketHeader) :
    Option { capacity : Int // 0 < capacity } :=
  if detector.mEstimateCapacity then estimateCapacity header detector.mCircularBufferDuration
  else some ⟨detector.mCircularBufferSize, detector.sized⟩

/-- What `allow` does with the buffer of a stream it knows. -/
def allowIn (buffer : CircularBuffer DataPacketHeader) (header : DataPacketHeader) :
    AllowResult × CircularBuffer DataPacketHeader :=
  match header.find buffer.items with
  | .error what => (.threw what, buffer)
  | .ok true => (.returned false, buffer)
  | .ok false =>
      if header.startTime > buffer.back.endTime then (.returned true, buffer.pushBack header)
      else if header.endTime < buffer.front.startTime then
        -- the header is remembered if there is room, and refused either way
        (.returned false, if buffer.full then buffer else buffer.pushFront header)
      else if buffer.items.any header.slips then (.returned false, buffer)
      else (.returned true, (buffer.pushBack header).sort DataPacketHeader.StartsFirst)

def allow (detector : DuplicatePacketDetectorImpl) (header : DataPacketHeader) :
    AllowResult × DuplicatePacketDetectorImpl :=
  match detector.mCircularBuffers[header.name]? with
  | none =>
      match detector.newCapacity header with
      | none => (.undefined, detector)
      | some capacity =>
          (.returned true, { detector with
            mCircularBuffers := detector.mCircularBuffers.insert header.name
              (.start capacity.1.toNat (Int.pos_iff_toNat_pos.mp capacity.2) header) })
  | some buffer =>
      let decision := allowIn buffer header
      (decision.1, { detector with
        mCircularBuffers := detector.mCircularBuffers.insert header.name decision.2 })

end DuplicatePacketDetectorImpl

structure DuplicatePacketDetector where
  pImpl : DuplicatePacketDetectorImpl

namespace DuplicatePacketDetector

def construct (options : DuplicatePacketDetectorOptions) : Except String DuplicatePacketDetector :=
  match options.getCircularBufferDuration with
  | some circularBufferDuration =>
      if circularBufferDuration ≤ 0 then .error "Circular buffer duration must be positive"
      else .ok ⟨{ mCircularBufferDuration := circularBufferDuration, mEstimateCapacity := true }⟩
  | none =>
      match options.getCircularBufferSize with
      | some circularBufferSize =>
          if none : circularBufferSize ≤ 0 then .error "Circular buffer size must be positive"
          else .ok ⟨{
            mCircularBufferSize := circularBufferSize
            mEstimateCapacity := false
            sized := lt_of_not_ge none }⟩
      | none => .error "Circular buffer size or duration must be specified"

/-- `DuplicatePacketDetector::allow`; a packet without a header is not allowed. -/
def allow (detector : DuplicatePacketDetector) (packet : Packet) :
    AllowResult × DuplicatePacketDetector :=
  match DataPacketHeader.ofPacket packet with
  | .error _ => (.returned false, detector)
  | .ok header =>
      let decision := detector.pImpl.allow header
      (decision.1, ⟨decision.2⟩)

end DuplicatePacketDetector

/-- The calls of `allow` on one detector; a call that throws is caught by its caller. -/
def detectorMachine : Machine DuplicatePacketDetector Packet AllowResult where
  step detector packet := ((detector.allow packet).2, (detector.allow packet).1)

end UDataPacketService
