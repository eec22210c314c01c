import UDataPacketService.PacketModel

/-! The future packet detector. The sampling interval is rounded to a microsecond
before it is multiplied by the number of intervals, so the error of the end time
grows with the number of samples. -/
namespace UDataPacketService

/-- `FuturePacketDetectorOptions`, in microseconds. -/
structure FuturePacketDetectorOptions where
  mMaxFutureTime : Int := 0

namespace FuturePacketDetectorOptions

def setMaxFutureTime (duration : Int) : FuturePacketDetectorOptions := ⟨duration⟩

def getMaxFutureTime (options : FuturePacketDetectorOptions) : Int := options.mMaxFutureTime

end FuturePacketDetectorOptions

structure FuturePacketDetector where
  mMaxFutureTime : Int

namespace FuturePacketDetector

def construct (options : FuturePacketDetectorOptions) : FuturePacketDetector :=
  ⟨options.getMaxFutureTime⟩

/-- `allow` when the clock shows `nowMuSeconds`. -/
def allow (detector : FuturePacketDetector) (nowMuSeconds : Int) (packet : Packet) :
    Except String Bool :=
  match getEndTimeInMicroSeconds packet with
  | .error what => .error what
  | .ok packetEndTime =>
      let latestTime := nowMuSeconds + detector.mMaxFutureTime
      .ok (packetEndTime ≤ latestTime)

theorem allow_eq {detector : FuturePacketDetector} {packet : Packet} {packetEndTime : Int}
    (computed : getEndTimeInMicroSeconds packet = .ok packetEndTime) (nowMuSeconds : Int) :
    detector.allow nowMuSeconds packet =
      .ok (packetEndTime ≤ nowMuSeconds + detector.mMaxFutureTime) := by
  unfold allow
  rw [computed]

end FuturePacketDetector

namespace Packet

def samplePeriod (packet : Packet) : ℚ := 1000000 / packet.samplingRate

def sampleTime (packet : Packet) (k : ℕ) : ℚ :=
  packet.startTime.toMicroseconds + k * packet.samplePeriod

/-- How far the rounded intervals between the samples are off in total. -/
def intervalError (packet : Packet) : ℚ :=
  (packet.numberOfSamples.toNat - 1 : ℕ) *
    |packet.samplePeriod - round packet.samplePeriod|

/-- Every packet that a detector allows has no sample more than a microsecond beyond
the time that the detector allows. -/
def KeepsFutureOut (packet : Packet) : Prop :=
  ∀ (options : FuturePacketDetectorOptions) (nowMuSeconds : Int),
    (FuturePacketDetector.construct options).allow nowMuSeconds packet = .ok true →
      ∀ k < packet.numberOfSamples.toNat,
        packet.sampleTime k ≤ nowMuSeconds + options.getMaxFutureTime + 1

/-- The computed end time is within a microsecond of the exact time of the last sample. -/
def EndsAccurately (packet : Packet) : Prop :=
  ∃ endTime, getEndTimeInMicroSeconds packet = .ok endTime ∧
    |(endTime : ℚ) - packet.sampleTime (packet.numberOfSamples.toNat - 1)| ≤ 1

variable {packet : Packet}

theorem samplePeriod_pos (rate : 0 < packet.samplingRate) : 0 < packet.samplePeriod :=
  div_pos (by norm_num) rate

theorem sampleTime_le_last (rate : 0 < packet.samplingRate) {k : ℕ}
    (sample : k < packet.numberOfSamples.toNat) :
    packet.sampleTime k ≤ packet.sampleTime (packet.numberOfSamples.toNat - 1) := by
  have before : (k : ℚ) ≤ (packet.numberOfSamples.toNat - 1 : ℕ) := by
    exact_mod_cast Nat.le_sub_one_of_lt sample
  have interval := (samplePeriod_pos rate).le
  unfold sampleTime
  gcongr

/-- Rounding is off by half a microsecond for each interval at most. -/
theorem intervalError_le : packet.intervalError ≤ (packet.numberOfSamples.toNat - 1 : ℕ) / 2 := by
  have half := abs_sub_round packet.samplePeriod
  calc packet.intervalError
      ≤ (packet.numberOfSamples.toNat - 1 : ℕ) * (1 / 2) := by
        unfold intervalError
        gcongr
    _ = (packet.numberOfSamples.toNat - 1 : ℕ) / 2 := by ring

end Packet

theorem stdRound_eq_round {x : ℚ} (h : 0 ≤ x) : stdRound x = round x := by
  rw [stdRound, if_pos h, round_eq]

theorem toNat_numberOfSamples_sub_one {packet : Packet} (samples : packet.numberOfSamples ≠ 0) :
    (packet.numberOfSamples - 1).toNat = packet.numberOfSamples.toNat - 1 := by
  have some : packet.numberOfSamples.toNat ≠ 0 := fun none => samples (UInt32.toNat_inj.mp none)
  have one : 1 ≤ packet.numberOfSamples := by
    rw [UInt32.le_iff_toNat_le]
    exact Nat.one_le_iff_ne_zero.mpr some
  exact UInt32.toNat_sub_of_le _ _ one

section EndTime
variable {packet : Packet} (samples : packet.numberOfSamples ≠ 0) (rate : 0 < packet.samplingRate)
include samples rate

/-- The end time of a packet with samples adds up rounded intervals. -/
theorem getEndTimeInMicroSeconds_eq :
    getEndTimeInMicroSeconds packet = .ok (packet.startTime.toMicroseconds +
      round packet.samplePeriod * (packet.numberOfSamples.toNat - 1 : ℕ)) := by
  have count := toNat_numberOfSamples_sub_one samples
  have interval := stdRound_eq_round (Packet.samplePeriod_pos rate).le
  unfold getEndTimeInMicroSeconds
  rw [if_neg (not_le_of_gt rate), count]
  rw [Packet.samplePeriod] at interval ⊢
  rw [interval]

theorem endTime_sub_sampleTime {endTime : Int}
    (computed : getEndTimeInMicroSeconds packet = .ok endTime) :
    (endTime : ℚ) - packet.sampleTime (packet.numberOfSamples.toNat - 1) =
      (packet.numberOfSamples.toNat - 1 : ℕ) *
        (round packet.samplePeriod - packet.samplePeriod) := by
  rw [getEndTimeInMicroSeconds_eq samples rate] at computed
  rw [← Except.ok.inj computed, Packet.sampleTime]
  push_cast
  ring

theorem endsAccurately_iff : packet.EndsAccurately ↔ packet.intervalError ≤ 1 := by
  have total : ∀ endTime, getEndTimeInMicroSeconds packet = .ok endTime →
      |(endTime : ℚ) - packet.sampleTime (packet.numberOfSamples.toNat - 1)| =
        packet.intervalError := by
    intro endTime computed
    rw [endTime_sub_sampleTime samples rate computed, abs_mul, Nat.abs_cast, abs_sub_comm]
    rfl
  constructor
  · rintro ⟨endTime, computed, near⟩
    rwa [total endTime computed] at near
  · intro near
    have computed := getEndTimeInMicroSeconds_eq samples rate
    exact ⟨_, computed, (total _ computed).trans_le near⟩

/-- The future is kept out exactly if the last sample is at most a microsecond later
than the end time says. -/
theorem keepsFutureOut_iff_endTime {endTime : Int}
    (computed : getEndTimeInMicroSeconds packet = .ok endTime) :
    packet.KeepsFutureOut ↔
      packet.sampleTime (packet.numberOfSamples.toNat - 1) ≤ endTime + 1 := by
  constructor
  · intro keeps
    have some : packet.numberOfSamples.toNat ≠ 0 := fun none => samples (UInt32.toNat_inj.mp none)
    -- the clock shows the end of the packet
    have allowed : (FuturePacketDetector.construct {}).allow endTime packet = .ok true := by
      rw [FuturePacketDetector.allow_eq computed]
      exact congrArg Except.ok (decide_eq_true (le_add_of_nonneg_right le_rfl))
    have late := keeps {} endTime allowed _ (Nat.sub_one_lt some)
    simpa [FuturePacketDetectorOptions.getMaxFutureTime] using late
  · intro last options nowMuSeconds allowed k sample
    have early : endTime ≤ nowMuSeconds + options.getMaxFutureTime := by
      rw [FuturePacketDetector.allow_eq computed] at allowed
      exact of_decide_eq_true (Except.ok.inj allowed)
    have bound : (endTime : ℚ) ≤ nowMuSeconds + options.getMaxFutureTime := by exact_mod_cast early
    calc packet.sampleTime k
        ≤ packet.sampleTime (packet.numberOfSamples.toNat - 1) :=
          Packet.sampleTime_le_last rate sample
      _ ≤ endTime + 1 := last
      _ ≤ nowMuSeconds + options.getMaxFutureTime + 1 := by gcongr

/-- It is kept out as long as the rounded intervals are not too short in total. -/
theorem keepsFutureOut_iff :
    packet.KeepsFutureOut ↔ (packet.numberOfSamples.toNat - 1 : ℕ) *
      (packet.samplePeriod - round packet.samplePeriod) ≤ 1 := by
  have computed := getEndTimeInMicroSeconds_eq samples rate
  have error := endTime_sub_sampleTime samples rate computed
  rw [keepsFutureOut_iff_endTime samples rate computed]
  constructor <;> intro <;> linarith

/-- No allowed packet has data from the future and the end time is accurate exactly if
the rounding of the sampling interval is off by at most a microsecond over the packet. -/
theorem no_future_data_iff :
    packet.KeepsFutureOut ∧ packet.EndsAccurately ↔ packet.intervalError ≤ 1 := by
  rw [endsAccurately_iff samples rate, keepsFutureOut_iff samples rate]
  refine ⟨And.right, fun near => ⟨le_trans ?_ near, near⟩⟩
  unfold Packet.intervalError
  gcongr
  exact le_abs_self _

end EndTime

/-- At 100 Hz the interval is a whole number of microseconds. -/
theorem no_future_data_at_whole_interval :
    (channelPacket "HHZ" 0 100).KeepsFutureOut ∧ (channelPacket "HHZ" 0 100).EndsAccurately :=
  (no_future_data_iff (by decide) (by decide +kernel)).mpr (by decide +kernel)

def thirdsPacket : Packet :=
  { channelPacket "HHZ" 0 5 with samplingRateField := some 3 }

/-- A detector allows the packet more than a microsecond before its last sample. -/
theorem future_data_allowed : ¬(thirdsPacket.KeepsFutureOut ∧ thirdsPacket.EndsAccurately) := by
  rintro ⟨keeps, -⟩
  have late := keeps {} 1333332 (by decide +kernel) 4 (by decide)
  exact absurd late (by decide +kernel)

end UDataPacketService
